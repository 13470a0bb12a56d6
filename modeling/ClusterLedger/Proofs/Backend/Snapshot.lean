import ClusterLedger.Proofs.Backend.Refusals

/-!
# Documents that are replaced or left alone

The document of a target in a folder is staged, the one before is copied, and then the staged one is moved
to its place. Whatever stands in the folder, the document changes in the last step only, and nothing
but the document, its backup and the staged file is touched.
-/
namespace ClusterLedger

/-! ## One folder -/

namespace Disk

open Entry (LeadsTo NoFolder)

variable {disk disk' disk'' : Entry} {way names names' : List String} {m n : String}
  {es es' : List (String × Entry)} {bytes : ByteArray} {l : Location}

/-- The folder of a way holds what it held, but for some names. -/
def Rewrites (way names : List String) (disk disk' : Entry) : Prop :=
  ∃ es es', LeadsTo disk way es ∧ LeadsTo disk' way es' ∧
    ∀ n, n ∉ names → Entries.get? n es' = Entries.get? n es

theorem Rewrites.trans (h : Rewrites way names disk disk') (h' : Rewrites way names disk' disk'') :
    Rewrites way names disk disk'' := by
  obtain ⟨es, es', hes, hes', hget⟩ := h
  obtain ⟨es₁, es'', hes₁, hes'', hget'⟩ := h'
  obtain rfl := hes'.unique hes₁
  exact ⟨es, es'', hes, hes'', fun n hn => (hget' n hn).trans (hget n hn)⟩

theorem Rewrites.mono (h : Rewrites way names disk disk') (hnames : names ⊆ names') :
    Rewrites way names' disk disk' := by
  obtain ⟨es, es', hes, hes', hget⟩ := h
  exact ⟨es, es', hes, hes', fun n hn => hget n fun hmem => hn (hnames hmem)⟩

/-- What stands under another name is as it was, with everything in it. -/
theorem Rewrites.at? (h : Rewrites way names disk disk') (hn : n ∉ names) :
    disk'.at? (Location.place ⟨way, n⟩) = disk.at? (Location.place ⟨way, n⟩) := by
  obtain ⟨es, es', hes, hes', hget⟩ := h
  rw [Location.place, Entry.at?_child hes'.folder, Entry.at?_child hes.folder, hget n hn]

theorem Rewrites.look? (h : Rewrites way names disk disk') (hn : Plain n)
    (hlimit : n.utf8ByteSize ≤ nameLimit) (hnames : n ∉ names) :
    disk'.look? ⟨way, n⟩ = disk.look? ⟨way, n⟩ := by
  obtain ⟨es, es', hes, hes', hget⟩ := h
  rw [hes'.look? hn hlimit, hes.look? hn hlimit, hget n hnames]

theorem Rewrites.reaches (h : Rewrites way names disk disk') (hn : Plain n)
    (hlimit : n.utf8ByteSize ≤ nameLimit) (hreaches : disk.Reaches ⟨way, n⟩) :
    disk'.Reaches ⟨way, n⟩ := by
  obtain ⟨es, es', -, hes', -⟩ := h
  have hcheck : Entry.check (way ++ [n]) = .ok () := Entry.check_of_follow? hreaches
  rw [Entry.Reaches, Location.way, hes'.follow?_snoc hn hlimit, hcheck]
  rfl

theorem read_of_look? (h : disk'.look? l = disk.look? l) : read disk' l = read disk l := by
  rw [read, read, h]

/-- A file can be written at a location: what is there is no folder. -/
def Entry.Accepts (disk : Entry) (l : Location) : Prop :=
  ∃ x, disk.look? l = .ok x ∧ ∀ entries, x ≠ some (.folder entries)

theorem accepts_of_look? (h : disk'.look? l = disk.look? l) : disk'.Accepts l ↔ disk.Accepts l := by
  rw [Entry.Accepts, Entry.Accepts, h]

theorem write_eq_ok_iff :
    write disk l bytes = .ok disk' ↔ disk.Accepts l ∧ disk' = disk.put l (.file bytes) := by
  rw [write]
  constructor
  · intro h
    split at h
    · cases h
    · next x hfolder hlook =>
      cases h
      exact ⟨⟨x, hlook, hfolder⟩, rfl⟩
    · cases h
  · rintro ⟨⟨x, hlook, hfolder⟩, rfl⟩
    rw [hlook]
    cases x with
    | none => rfl
    | some e =>
      cases e with
      | file b => rfl
      | folder entries => exact absurd rfl (hfolder entries)

theorem Entry.Accepts.write (h : disk.Accepts l) (bytes : ByteArray) :
    write disk l bytes = .ok (disk.put l (.file bytes)) :=
  write_eq_ok_iff.2 ⟨h, rfl⟩

theorem copy_eq_ok_iff {source target : Location} : copy disk source target = .ok disk' ↔
    ∃ old, read disk source = .ok old ∧ write disk target old = .ok disk' := by
  rw [copy]
  cases hread : read disk source with
  | ok old => simp
  | error fault => cases fault <;> simp

/-- A file that is written stands beside what was in the folder. -/
theorem write_rewrites (hn : Plain n) (h : write disk ⟨way, n⟩ bytes = .ok disk') :
    Rewrites way [n] disk disk' ∧ disk'.at? (Location.place ⟨way, n⟩) = .ok (.file bytes) := by
  obtain ⟨⟨x, hlook, hfolder⟩, rfl⟩ := write_eq_ok_iff.1 h
  obtain ⟨-, es, hes, rfl⟩ := Entry.look?_eq_ok hn hlook
  obtain ⟨-, hes'⟩ := put_file hes (noFolder_of_ne hfolder) bytes
  refine ⟨⟨es, _, hes, hes', fun k hk => ?_⟩, ?_⟩
  · rw [Entries.get?_insert, if_neg fun (he : n = k) => hk (he ▸ List.mem_singleton_self n)]
  · rw [Location.place, Entry.at?_child hes'.folder, Entries.get?_insert, if_pos rfl]

/-- A file is moved within its folder if the other name accepts a file. -/
theorem rename_rewrites (hm : Plain m) (hn : Plain n) (hne : m ≠ n)
    (hreaches : disk.Reaches ⟨way, m⟩)
    (hat : disk.at? (Location.place ⟨way, m⟩) = .ok (.file bytes))
    (haccepts : disk.Accepts ⟨way, n⟩) :
    ∃ disk', rename disk ⟨way, m⟩ ⟨way, n⟩ = .ok disk' ∧ Rewrites way [m, n] disk disk' ∧
      disk'.at? (Location.place ⟨way, n⟩) = .ok (.file bytes) ∧
      disk'.at? (Location.place ⟨way, m⟩) = .error .missing := by
  obtain ⟨x, hlook, hfolder⟩ := haccepts
  obtain ⟨-, es, hes, rfl⟩ := Entry.look?_eq_ok hn hlook
  obtain ⟨es', hes₁, hget⟩ := Entry.at?_snoc_eq_ok.1 hat
  obtain rfl : es' = es := by
    rw [hes.folder] at hes₁
    cases hes₁
    rfl
  have hlook' : disk.look? ⟨way, m⟩ = .ok (some (.file bytes)) := by
    rw [look?_of_reaches hes hreaches, hget]
  have hes' := leadsTo_put_take hes hget (noFolder_of_ne hfolder) hne
  refine ⟨_, rename_file hm hne hlook' hlook hfolder, ⟨_, _, hes, hes', fun k hk => ?_⟩, ?_, ?_⟩
  · rw [List.mem_cons, List.mem_singleton, not_or] at hk
    rw [Entries.get?_insert, if_neg (Ne.symm hk.2), Entries.get?_erase, if_neg (Ne.symm hk.1)]
  · rw [Location.place, Entry.at?_child hes'.folder, Entries.get?_insert, if_pos rfl]
  · rw [Location.place, Entry.at?_child hes'.folder, Entries.get?_insert, if_neg hne.symm,
      Entries.get?_erase, if_pos rfl]

/-- A probe in a folder that is there tells whether it has the name. -/
theorem probe_eq_ok_iff (hes : LeadsTo disk way es) (hn : Plain n)
    (hlimit : n.utf8ByteSize ≤ nameLimit) {holds : Bool} : probe disk ⟨way, n⟩ = .ok holds ↔
      ∃ x, disk.look? ⟨way, n⟩ = .ok x ∧ x.isSome = holds := by
  rw [probe, hes.look? hn hlimit]
  cases hcheck : Entry.check (way ++ [n]) with
  | ok u => simp [Except.map]
  | error fault =>
    -- A missing folder on the way would read as a name that is not there.
    have hmissing := Entry.ne_missing_of_check hcheck
    cases fault <;> first | exact absurd rfl hmissing | simp [Except.map]

theorem eq_error_of_settle {x : Except Fault Entry} {fault : Fault}
    (h : settle disk x = (.error fault, disk')) : x = .error fault := by
  cases x with
  | ok next => cases h
  | error f => cases h; rfl

end Disk

/-! ## A folder of a target -/

namespace Backend.Folder

open Disk (Entry Plain Rewrites)
open Disk.Entry (LeadsTo)

variable {root d : Folder} {disk disk' staged : Entry} {target : String} {lock : Lock}
  {bytes : ByteArray}

/-- The snapshot is as it was, and so is everything in the folder of the target but the staged file
and the backup. -/
structure KeepsSnapshot (root : Folder) (target : String) (disk disk' : Entry) : Prop where
  snapshot : ((root.load target).run Disk.answer disk').1 = ((root.load target).run Disk.answer disk).1
  others : ∀ n, n ≠ stagingFile → n ≠ backupFile →
    disk'.at? ((root.sub target).file n).place = disk.at? ((root.sub target).file n).place

/-- The snapshot consists of these bytes. The one before, if there was one, is the backup now, which
is otherwise as it was; no staged file is left, and everything else in the folder is as it was. -/
structure TakesSnapshot (root : Folder) (target : String) (bytes : ByteArray) (disk disk' : Entry) :
    Prop where
  snapshot : ((root.load target).run Disk.answer disk').1 = .ok bytes
  backup : ∀ old, ((root.load target).run Disk.answer disk).1 = .ok old →
    disk'.at? ((root.sub target).file backupFile).place = .ok (.file old)
  backup_kept : (∀ old, ((root.load target).run Disk.answer disk).1 ≠ .ok old) →
    disk'.at? ((root.sub target).file backupFile).place =
      disk.at? ((root.sub target).file backupFile).place
  staging : disk'.at? ((root.sub target).file stagingFile).place = .error .missing
  others : ∀ n, n ∉ documentFiles →
    disk'.at? ((root.sub target).file n).place = disk.at? ((root.sub target).file n).place

/-- There is no document yet, or there is one and a backup of it can be written. -/
def Replaceable (d : Folder) (disk : Entry) : Prop :=
  disk.look? (d.file Target.stateFile) = .ok none ∨
    ∃ old, Disk.read disk (d.file Target.stateFile) = .ok old ∧ disk.Accepts (d.file backupFile)

/-- What it takes to write a document: the caller has the lock, and no folder is in the way. -/
structure Ready (root : Folder) (target : String) (lock : Lock) (disk : Entry) : Prop where
  valid : Target.isValid target = true
  record : (root.sub target).onRecord disk = some lock.token
  staging : disk.Accepts ((root.sub target).file stagingFile)
  snapshot : (root.sub target).Replaceable disk

/-- Either all it takes is there and the snapshot is taken, or something is not and the snapshot is
kept. -/
inductive Outcome (root : Folder) (target : String) (bytes : ByteArray) (lock : Lock)
    (disk : Entry) : Result Unit → Entry → Prop
  | taken {disk' : Entry} (hready : root.Ready target lock disk)
      (h : root.TakesSnapshot target bytes disk disk') : Outcome root target bytes lock disk (.ok ()) disk'
  | kept {disk' : Entry} (e : Error) (hready : ¬root.Ready target lock disk)
      (h : root.KeepsSnapshot target disk disk') : Outcome root target bytes lock disk (.error e) disk'

theorem KeepsSnapshot.refl (root : Folder) (target : String) (disk : Entry) :
    root.KeepsSnapshot target disk disk :=
  ⟨rfl, fun _ _ _ => rfl⟩

theorem load_congr (h : disk'.look? ((root.sub target).file Target.stateFile) =
    disk.look? ((root.sub target).file Target.stateFile)) :
    ((root.load target).run Disk.answer disk').1 = ((root.load target).run Disk.answer disk).1 := by
  rw [load_run, load_run]
  exact document_congr (Disk.read_of_look? h)

/-- As long as only the staged file and the backup are written, the snapshot is kept. -/
theorem keepsSnapshot_of_rewrites
    (h : Rewrites (root.sub target).way [stagingFile, backupFile] disk disk') :
    root.KeepsSnapshot target disk disk' where
  snapshot := load_congr (h.look? plain_stateFile (by decide) (by decide))
  others n hstaging hbackup := h.at? (by simp [hstaging, hbackup])

/-- Whoever has the token on record gets past the guard, and nobody else does. -/
theorem guard_ends_iff (d : Folder) (target : String) (lock : Lock) (disk : Entry) :
    (d.guard target lock).Ends Disk.answer disk fun r disk' =>
      disk' = disk ∧ (r = .ok () ↔ d.onRecord disk = some lock.token) := by
  unfold Attempt.Ends
  rw [guard_run, onRecord]
  refine ⟨rfl, ?_⟩
  cases Disk.read disk (d.file Target.lockFile) with
  | error fault => cases fault <;> simp [recordOf, Except.bind, verify, Except.toOption, Lock.tokenIn?]
  | ok bytes =>
    simp only [recordOf, Except.toOption, Lock.tokenIn?, Option.bind_some]
    cases Lock.ofBytes? bytes with
    | none => simp [Except.bind]
    | some current =>
      simp only [Except.bind, verify, Option.map_some]
      split
      · next htoken => exact iff_of_true rfl htoken
      · next htoken => exact iff_of_false (by simp) htoken

theorem load_of_isValid (hvalid : Target.isValid target = true) (disk : Entry) :
    ((root.load target).run Disk.answer disk).1 =
      documentOf target (Disk.read disk ((root.sub target).file Target.stateFile)) := by
  rw [load_run, document, target_of_isValid hvalid]
  rfl

theorem documentOf_eq_ok {r : Except Disk.Fault ByteArray} :
    documentOf target r = .ok bytes ↔ r = .ok bytes := by
  cases r with
  | ok old => simp [documentOf]
  | error fault => cases fault <;> simp [documentOf]

theorem Replaceable.accepts (h : d.Replaceable disk) : disk.Accepts (d.file Target.stateFile) := by
  rcases h with hnone | ⟨old, hread, -⟩
  · exact ⟨none, hnone, nofun⟩
  · exact ⟨some (.file old), Disk.look?_of_read hread, nofun⟩

/-! ### The steps -/

/-- The document is written under the name of the staged file, within reach; beyond that nothing is
written. -/
structure Written (d : Folder) (bytes : ByteArray) (disk staged : Entry) : Prop where
  rewrites : Rewrites d.way [stagingFile] disk staged
  reaches : staged.Reaches (d.file stagingFile)
  staging : staged.at? (d.file stagingFile).place = .ok (.file bytes)

/-- The document is staged within reach, and the one before is the backup; beyond that nothing is
written. -/
structure Staged (d : Folder) (bytes : ByteArray) (disk staged : Entry) : Prop where
  rewrites : Rewrites d.way [stagingFile, backupFile] disk staged
  reaches : staged.Reaches (d.file stagingFile)
  staging : staged.at? (d.file stagingFile).place = .ok (.file bytes)
  backup : ∀ old, Disk.read disk (d.file Target.stateFile) = .ok old →
    staged.at? (d.file backupFile).place = .ok (.file old)
  backup_kept : disk.look? (d.file Target.stateFile) = .ok none →
    staged.at? (d.file backupFile).place = disk.at? (d.file backupFile).place

theorem written_of_write (h : Disk.write disk (d.file stagingFile) bytes = .ok staged) :
    d.Written bytes disk staged := by
  obtain ⟨hrewrites, hstaging⟩ := Disk.write_rewrites plain_stagingFile h
  obtain ⟨x, hx, -⟩ := (Disk.write_eq_ok_iff.1 h).1
  have hreaches := (Entry.look?_eq_ok plain_stagingFile hx).1
  exact ⟨hrewrites, hrewrites.reaches plain_stagingFile (by decide) hreaches, hstaging⟩

theorem Written.look?_stateFile (h : d.Written bytes disk staged) :
    staged.look? (d.file Target.stateFile) = disk.look? (d.file Target.stateFile) :=
  h.rewrites.look? plain_stateFile (by decide) (by decide)

theorem Written.accepts_backupFile (h : d.Written bytes disk staged) :
    staged.Accepts (d.file backupFile) ↔ disk.Accepts (d.file backupFile) :=
  Disk.accepts_of_look? (h.rewrites.look? plain_backupFile (by decide) (by decide))

/-- Without a document before there is nothing to copy. -/
theorem Written.staged_of_none (h : d.Written bytes disk staged)
    (hnone : disk.look? (d.file Target.stateFile) = .ok none) : d.Staged bytes disk staged where
  rewrites := h.rewrites.mono (by simp)
  reaches := h.reaches
  staging := h.staging
  backup old hread := by cases (Disk.look?_of_read hread).symm.trans hnone
  backup_kept _ := h.rewrites.at? (by decide)

theorem Written.staged_of_copy (h : d.Written bytes disk staged)
    (hcopy : Disk.copy staged (d.file Target.stateFile) (d.file backupFile) = .ok disk') :
    d.Replaceable disk ∧ d.Staged bytes disk disk' := by
  obtain ⟨old, hread, hwrite⟩ := Disk.copy_eq_ok_iff.1 hcopy
  obtain ⟨hcopied, hbackup⟩ := Disk.write_rewrites plain_backupFile hwrite
  have hold := (Disk.read_of_look? h.look?_stateFile).symm.trans hread
  have haccepts := h.accepts_backupFile.1 (Disk.write_eq_ok_iff.1 hwrite).1
  refine ⟨.inr ⟨old, hold, haccepts⟩, (h.rewrites.mono (by simp)).trans (hcopied.mono (by simp)),
    hcopied.reaches plain_stagingFile (by decide) h.reaches,
    (hcopied.at? (by decide)).trans h.staging, fun old' hold' => ?_, fun hnone => ?_⟩
  · cases hold.symm.trans hold'
    exact hbackup
  · cases (Disk.look?_of_read hold).symm.trans hnone

/-- A document that can be replaced is copied, if there is one. -/
theorem Written.copy_of_replaceable (h : d.Written bytes disk staged)
    (hreplaceable : d.Replaceable disk) {e : Entry}
    (hsome : disk.look? (d.file Target.stateFile) = .ok (some e)) :
    ∃ copied, Disk.copy staged (d.file Target.stateFile) (d.file backupFile) = .ok copied := by
  rcases hreplaceable with hnone | ⟨old, hread, haccepts⟩
  · cases hnone.symm.trans hsome
  · have hwrite := (h.accepts_backupFile.2 haccepts).write old
    have hold := (Disk.read_of_look? h.look?_stateFile).trans hread
    exact ⟨_, Disk.copy_eq_ok_iff.2 ⟨old, hold, hwrite⟩⟩

/-- The last step cannot fail, and takes the snapshot. -/
theorem Staged.takes (h : (root.sub target).Staged bytes disk staged)
    (hvalid : Target.isValid target = true) (hreplaceable : (root.sub target).Replaceable disk) :
    (ask (.rename ((root.sub target).file stagingFile) ((root.sub target).file Target.stateFile))).Ends
      Disk.answer staged fun r disk' => r = .ok () ∧ root.TakesSnapshot target bytes disk disk' := by
  have hlook := h.rewrites.look? plain_stateFile (by decide) (by decide)
  have haccepts := (Disk.accepts_of_look? hlook).2 hreplaceable.accepts
  obtain ⟨disk', hrename, hmoved, hstate, hstaging⟩ :=
    Disk.rename_rewrites plain_stagingFile plain_stateFile (by decide) h.reaches h.staging haccepts
  have hanswer : Disk.answer (.rename ((root.sub target).file stagingFile)
      ((root.sub target).file Target.stateFile)) staged = (.ok (), disk') :=
    congrArg (Disk.settle staged) hrename
  refine ends_ask.2 ?_
  rw [hanswer]
  refine ⟨rfl, ?_, fun old hold => ?_, fun hnone => ?_, hstaging, fun n hn => ?_⟩
  · obtain ⟨x, hx, -⟩ := hreplaceable.accepts
    have hreaches := hmoved.reaches plain_stateFile (by decide)
      (h.rewrites.reaches plain_stateFile (by decide) (Entry.look?_eq_ok plain_stateFile hx).1)
    rw [load_of_isValid hvalid]
    refine documentOf_eq_ok.2 ((Disk.read_eq_ok plain_stateFile).2 ⟨hreaches, ?_⟩)
    rw [Entry.file?, hstate]
    rfl
  · rw [load_of_isValid hvalid] at hold
    exact (hmoved.at? (by decide)).trans (h.backup old (documentOf_eq_ok.1 hold))
  · rcases hreplaceable with hlook | ⟨old, hread, -⟩
    · exact (hmoved.at? (by decide)).trans (h.backup_kept hlook)
    · refine absurd ?_ (hnone old)
      rw [load_of_isValid hvalid]
      exact documentOf_eq_ok.2 hread
  · simp only [documentFiles, List.mem_cons, not_or] at hn
    refine (hmoved.at? ?_).trans (h.rewrites.at? ?_)
    · simp [hn.1, hn.2.2.1]
    · simp [hn.1, hn.2.1]

/-- Once the document is written under the name of the staged file, the one before is copied and the
new one is moved to its place; a document that cannot be replaced is kept. -/
theorem replace_ends (hvalid : Target.isValid target = true)
    (h : (root.sub target).Written bytes disk staged) :
    (do
      if ← ask (.probe ((root.sub target).file Target.stateFile)) then
        ask (.copy ((root.sub target).file Target.stateFile) ((root.sub target).file backupFile))
      ask (.rename ((root.sub target).file stagingFile) ((root.sub target).file Target.stateFile)) :
        Attempt Disk.effects Unit).Ends Disk.answer staged fun r disk' =>
      (r = .ok () ∧ (root.sub target).Replaceable disk ∧ root.TakesSnapshot target bytes disk disk') ∨
        ((∃ e, r = .error e) ∧ ¬(root.sub target).Replaceable disk ∧
          root.KeepsSnapshot target disk disk') := by
  have hkeeps := keepsSnapshot_of_rewrites (h.rewrites.mono (by simp))
  obtain ⟨-, es, -, hes, -⟩ := h.rewrites
  refine ends_ask_bind (fun holds next hprobe => ?_) (fun fault next hprobe => ?_)
  · obtain rfl : staged = next := congrArg Prod.snd hprobe
    obtain ⟨x, hx, rfl⟩ :=
      (Disk.probe_eq_ok_iff hes plain_stateFile (by decide)).1 (congrArg Prod.fst hprobe)
    have hlook := h.look?_stateFile.symm.trans hx
    cases x with
    | none =>
      refine ((h.staged_of_none hlook).takes hvalid (.inl hlook)).imp fun r disk' htakes => ?_
      exact .inl ⟨htakes.1, .inl hlook, htakes.2⟩
    | some e =>
      refine ends_ask_bind (fun _ copied hcopy => ?_) (fun fault copied hcopy => ?_)
      · obtain ⟨hreplaceable, hstaged⟩ := h.staged_of_copy (Disk.settle_eq_ok hcopy)
        refine (hstaged.takes hvalid hreplaceable).imp fun r disk' htakes => ?_
        exact .inl ⟨htakes.1, hreplaceable, htakes.2⟩
      · have hfails := Disk.eq_error_of_settle hcopy
        rw [Disk.settle_eq_error hcopy]
        refine .inr ⟨⟨_, rfl⟩, fun hreplaceable => ?_, hkeeps⟩
        obtain ⟨copied, hcopies⟩ := h.copy_of_replaceable hreplaceable hlook
        cases hcopies.symm.trans hfails
  · obtain rfl : staged = next := congrArg Prod.snd hprobe
    refine .inr ⟨⟨_, rfl⟩, fun hreplaceable => ?_, hkeeps⟩
    obtain ⟨x, hx, -⟩ := hreplaceable.accepts
    have hprobes := (Disk.probe_eq_ok_iff hes plain_stateFile (by decide)).2
      ⟨x, h.look?_stateFile.trans hx, rfl⟩
    cases hprobes.symm.trans (congrArg Prod.fst hprobe)

theorem persist_outcome (root : Folder) (target : String) (bytes : ByteArray) (lock : Lock)
    (disk : Entry) : (root.persist target bytes lock).Ends Disk.answer disk
      (root.Outcome target bytes lock disk) := by
  by_cases hvalid : Target.isValid target = true
  · rw [persist, target_of_isValid hvalid]
    refine Attempt.ends_bind.2 (Attempt.ends_ofResult.2 (Attempt.ends_bind.2 ?_))
    refine (guard_ends_iff (root.sub target) target lock disk).imp ?_
    rintro (e | u) disk' ⟨rfl, hrecord⟩
    · exact .kept e (fun h => by cases hrecord.2 h.record) (.refl root target disk')
    · have htoken := hrecord.1 rfl
      refine ends_ask_bind (fun _ staged hwrite => ?_) (fun fault staged hwrite => ?_)
      · have hwrites := Disk.settle_eq_ok hwrite
        have haccepts := (Disk.write_eq_ok_iff.1 hwrites).1
        refine (replace_ends hvalid (written_of_write hwrites)).imp ?_
        rintro r disk'' (⟨rfl, hreplaceable, htakes⟩ | ⟨⟨e, rfl⟩, hnot, hkeeps⟩)
        · exact .taken ⟨hvalid, htoken, haccepts, hreplaceable⟩ htakes
        · exact .kept e (fun h => hnot h.snapshot) hkeeps
      · have hfails := Disk.eq_error_of_settle hwrite
        rw [Disk.settle_eq_error hwrite]
        refine .kept _ (fun h => ?_) (.refl root target disk')
        cases (h.staging.write bytes).symm.trans hfails
  · rw [persist, Folder.target, Target.check, if_neg hvalid]
    exact .kept _ (fun h => hvalid h.valid) (.refl root target disk)

/-- Writing a document either happens or leaves the snapshot alone. It happens exactly if the caller
has the lock and the disk takes the staged file and the document in place of what is there, and also
the backup where there is a document already. -/
theorem persist_takes_or_keeps (root : Folder) (target : String) (bytes : ByteArray) (lock : Lock)
    (disk : Entry) :
    let (r, disk') := (root.persist target bytes lock).run Disk.answer disk
    (r = .ok () ↔ root.Ready target lock disk) ∧
      (r = .ok () → root.TakesSnapshot target bytes disk disk') ∧
      (∀ e, r = .error e → root.KeepsSnapshot target disk disk') := by
  have h : root.Outcome target bytes lock disk _ _ := persist_outcome root target bytes lock disk
  revert h
  generalize (root.persist target bytes lock).run Disk.answer disk = run
  obtain ⟨r, disk'⟩ := run
  intro h
  cases h with
  | taken hready h => exact ⟨iff_of_true rfl hready, fun _ => h, nofun⟩
  | kept e hnot h => exact ⟨iff_of_false nofun hnot, nofun, fun _ _ => h⟩

/-- A target with a lock and a file left under the name of the staged one. -/
def leftover (lock : ByteArray) : Entry :=
  .folder [("s", .folder [("prod", .folder
    [(Target.lockFile, .file lock), (stagingFile, .file ByteArray.empty)])])]

/-- What is left of a write that was broken off is not in the way. -/
example : Ready ⟨["s"], "s"⟩ "prod" Place.oldLock (leftover Place.oldLock.toBytes) where
  valid := by decide
  record := by
    have hread (b : ByteArray) : Disk.read (leftover b) ⟨["s", "prod"], Target.lockFile⟩ = .ok b := rfl
    have hshows : Place.oldLock.acquiredAt.Shows := ⟨by decide, by decide⟩
    rw [onRecord, file, sub, List.singleton_append, hread, Except.toOption, Lock.tokenIn?,
      Option.bind_some, Lock.ofBytes?_toBytes_of_shows hshows, Option.map_some]
  staging := ⟨some (.file ByteArray.empty), rfl, nofun⟩
  snapshot := .inl rfl

end Backend.Folder

end ClusterLedger
