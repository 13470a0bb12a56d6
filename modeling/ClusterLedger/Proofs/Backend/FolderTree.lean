import ClusterLedger.Proofs.Backend.Agree
import ClusterLedger.Proofs.Backend.Chronicle
import ClusterLedger.Proofs.Backend.Listing
import ClusterLedger.Proofs.Backend.Refusals

/-!
# The tree of a folder

What stands below a folder that was empty is told by the answers to the calls: the records of the
locks, the documents, and those that they have replaced. Nothing else is there, as long as the disk
takes the files of a target wherever it takes its folder.
-/
namespace ClusterLedger.Backend

namespace Folder

open Disk (Entry Filled Usable Admitted)
open Disk.Entry (LeadsTo)

variable {root : Folder} {caller : Caller} {target name : String} {lock : Lock} {bytes : ByteArray}
  {folders folders' : Dict (Dict ByteArray)} {files : Dict ByteArray} {disk : Entry}
  {c c' : Chronicle} {α : Type}

/-! ## The folders of a chronicle -/

/-- The names in the folder of a target that do not depend on a caller. -/
def ownFiles : List String :=
  [Target.lockFile, Target.stateFile, backupFile, stagingFile, markerFile]

/-- Folders are those of a chronicle: they have its files, and none is empty. -/
structure Houses (root : Folder) (folders : Dict (Dict ByteArray)) (c : Chronicle) : Prop where
  proper : c.Proper
  usable : ∀ t files, folders.get? t = some files → ∀ n ∈ ownFiles, Usable root.way t n
  nonempty : ∀ t files, folders.get? t = some files → files ≠ {}
  files : ∀ t n, fileOf? folders t n = c.file? t n

theorem houses_empty (root : Folder) : root.Houses {} .empty := by
  refine ⟨Chronicle.proper_empty, nofun, nofun, fun t n => ?_⟩
  rw [Chronicle.file?, Ledger.bytes?]
  split
  · rfl
  · split
    · rfl
    · split <;> rfl

theorem Houses.get? (h : root.Houses folders c) (hfiles : folders.get? target = some files)
    (n : String) : files.get? n = c.file? target n := by
  rw [← h.files, fileOf?, hfiles]
  rfl

theorem Houses.get?_filesOf (h : root.Houses folders c) (target n : String) :
    (filesOf folders target).get? n = c.file? target n := by
  rw [← fileOf?_eq, h.files]

theorem settled_of_file? (h : ∀ n, files.get? n = c.file? target n) : Settled files := by
  intro n hlock hstate hbackup
  rw [h, Chronicle.file?_of_ne c target hbackup, Ledger.bytes?, if_neg hlock, if_neg hstate]

theorem ne_empty_of_get? (h : files.get? name = some bytes) : files ≠ {} := by
  rintro rfl
  cases h

/-- The files of one target are other ones. -/
theorem Houses.insert (h : root.Houses folders c) (hproper : c'.Proper)
    (husable : ∀ n ∈ ownFiles, Usable root.way target n) (hnonempty : files ≠ {})
    (hself : ∀ n, files.get? n = c'.file? target n)
    (hother : ∀ t, t ≠ target → ∀ n, c'.file? t n = c.file? t n) :
    root.Houses (folders.insert target files) c' := by
  refine ⟨hproper, fun t files' hget => ?_, fun t files' hget => ?_, fun t n => ?_⟩
  · rw [Dict.get?_insert] at hget
    split at hget
    · next ht => exact ht ▸ husable
    · exact h.usable t files' hget
  · rw [Dict.get?_insert] at hget
    split at hget
    · exact Option.some.inj hget ▸ hnonempty
    · exact h.nonempty t files' hget
  · by_cases ht : t = target
    · subst ht
      rw [fileOf?_insert, hself]
    · rw [hother t ht, ← h.files, fileOf?, fileOf?, Dict.get?_insert, if_neg (Ne.symm ht)]

/-- The folder of one target is gone. -/
theorem Houses.erase (h : root.Houses folders c) (hproper : c'.Proper)
    (hself : ∀ n, c'.file? target n = none)
    (hother : ∀ t, t ≠ target → ∀ n, c'.file? t n = c.file? t n) :
    root.Houses (folders.erase target) c' := by
  have hget' (t : String) (files' : Dict ByteArray)
      (hget : (folders.erase target).get? t = some files') : folders.get? t = some files' := by
    rw [Dict.get?_erase] at hget
    split at hget
    · cases hget
    · exact hget
  refine ⟨hproper, fun t files' hget => h.usable t files' (hget' t files' hget),
    fun t files' hget => h.nonempty t files' (hget' t files' hget), fun t n => ?_⟩
  by_cases ht : t = target
  · subst ht
    rw [hself, fileOf?, Dict.get?_erase, if_pos rfl]
    rfl
  · rw [hother t ht, ← h.files, fileOf?, fileOf?, Dict.get?_erase, if_neg (Ne.symm ht)]

theorem Houses.hold (h : root.Houses folders c) (hadmits : root.Admits caller target)
    (hvalid : Target.isValid target = true) (lock : Lock) :
    root.Houses (folders.insert target (locked (filesOf folders target) lock))
      (c.hold target lock) := by
  have hself (n : String) : (locked (filesOf folders target) lock).get? n =
      (c.hold target lock).file? target n := by
    rw [locked, Dict.get?_insert, h.get?_filesOf, Chronicle.file?_hold]
    exact if_congr (and_iff_right rfl).symm rfl rfl
  have hlock : (locked (filesOf folders target) lock).get? Target.lockFile = some lock.toBytes := by
    rw [locked, Dict.get?_insert, if_pos rfl]
  refine h.insert h.proper (fun n hn => hadmits.usable hvalid (List.mem_append_left _ hn))
    (ne_empty_of_get? hlock) hself fun t ht n => ?_
  rw [Chronicle.file?_hold, if_neg fun he => ht he.1.symm]

section

variable (h : root.Houses folders c) (hfiles : folders.get? target = some files)
include h hfiles

theorem Houses.free : root.Houses (if unlocked files = {} then folders.erase target
    else folders.insert target (unlocked files)) (c.free target) := by
  have hself (n : String) : (unlocked files).get? n = (c.free target).file? target n := by
    rw [unlocked, Dict.get?_erase, h.get? hfiles, Chronicle.file?_free]
    exact if_congr (and_iff_right rfl).symm rfl rfl
  have hother (t : String) (ht : t ≠ target) (n : String) :
      (c.free target).file? t n = c.file? t n := by
    rw [Chronicle.file?_free, if_neg fun he => ht he.1.symm]
  split
  · next hempty =>
    refine h.erase h.proper (fun n => ?_) hother
    rw [← hself, hempty]
    rfl
  · next hnonempty => exact h.insert h.proper (h.usable target files hfiles) hnonempty hself hother

variable {record : ByteArray} (hlock : files.get? Target.lockFile = some record)
include hlock

theorem Houses.put (bytes : ByteArray) :
    root.Houses (folders.insert target (replacing files bytes)) (c.put target bytes) := by
  have hkept : (replacing files bytes).get? Target.lockFile = some record := by
    rw [get?_replacing, if_neg (by decide), if_neg (by decide), hlock]
  -- Without a document there is no backup that could stay.
  have hbackup : (c.file? target Target.stateFile).or (c.file? target backupFile) =
      c.file? target Target.stateFile := by
    rw [Chronicle.file?_stateFile, Chronicle.file?_backupFile]
    cases hget : c.documents.get? target with
    | none => rw [h.proper target hget, Option.none_or]
    | some old => rfl
  refine h.insert (h.proper.put target bytes) (h.usable target files hfiles)
    (ne_empty_of_get? hkept) (fun n => ?_) fun t ht n => c.file?_put_of_ne bytes ht n
  rw [get?_replacing, Chronicle.file?_put_self, h.get? hfiles, h.get? hfiles]
  split
  · rfl
  · split
    · next hn => rw [← hn, hbackup]
    · rfl

theorem Houses.drop : root.Houses (folders.insert target (dropped files)) (c.drop target) := by
  have hkept : (dropped files).get? Target.lockFile = some record := by
    rw [get?_dropped, if_neg (by decide), hlock]
  refine h.insert (h.proper.drop target) (h.usable target files hfiles) (ne_empty_of_get? hkept)
    (fun n => ?_) fun t ht n => ?_
  · rw [get?_dropped, h.get? hfiles, Chronicle.file?_drop]
    exact if_congr (and_iff_right rfl).symm rfl rfl
  · rw [Chronicle.file?_drop, if_neg fun he => ht he.1.symm]

end

/-! ## Calls that the disk refuses -/

section

variable (hvalid : Target.isValid target = true)
include hvalid

/-- The folder of a target is not made. -/
theorem acquire_run_of_refused (hdisk : Filled root.way folders disk)
    (hrefused : ¬Admitted root.way target) (staleAfter : Nat) :
    ∃ e, (root.acquire caller staleAfter target).run Disk.answer disk = (.error e, disk) := by
  obtain ⟨fault, hgrow⟩ := Disk.grow_of_refused hdisk.leads (plain_of_isValid hvalid) hrefused
  have hanswer : Disk.answer (.makeFolder (root.sub target).way) disk = (.error fault, disk) :=
    hgrow
  have hmake : (ask (.makeFolder (root.sub target).way)).run Disk.answer disk =
      (.error (.disk fault), disk) := by
    change (Except.mapError Error.disk (Disk.answer (.makeFolder _) disk).1, _) = _
    rw [hanswer]
    rfl
  rw [acquire, target_of_isValid hvalid]
  exact ⟨_, (Attempt.run_bind_ok _ rfl).trans (Attempt.run_bind_error _ hmake)⟩

/-- The record of a lock is not moved to the private name. -/
theorem release_run_of_rename {fault : Disk.Fault} (caller : Caller) (lock : Lock)
    (hrename : Disk.rename disk ((root.sub target).file Target.lockFile)
      ((root.sub target).locate (claimFile (caller.lock 0))) = .error fault) :
    ∃ e, (root.release caller target lock).run Disk.answer disk = (.error e, disk) := by
  have hattempt := @attempt_run disk (.rename ((root.sub target).file Target.lockFile)
    ((root.sub target).locate (claimFile (caller.lock 0)))) (.error fault) disk
    (by rw [Disk.answer, hrename]; rfl)
  rw [release, target_of_isValid hvalid]
  cases fault with
  | missing =>
    have htake : ((root.sub target).take (caller.lock 0) lock.token).run Disk.answer disk =
        (.ok .missing, disk) := Attempt.run_bind_ok _ hattempt
    exact ⟨lost target none, (Attempt.run_bind_ok _ rfl).trans (Attempt.run_bind_ok _ htake)⟩
  | _ => exact ⟨_, (Attempt.run_bind_ok _ rfl).trans
      (Attempt.run_bind_error _ (Attempt.run_bind_ok _ hattempt))⟩

end

/-- A private path with a slash leads nowhere. -/
theorem look?_claim_of_slash {claim : Lock} {x : Option Entry} (htarget : Disk.Plain target)
    (hdisk : Filled root.way folders disk) (hslash : '/' ∈ (claimFile claim).toList) :
    disk.look? ((root.sub target).locate (claimFile claim)) ≠ .ok x := by
  intro hlook
  obtain ⟨front, rest, hfront, hfolder⟩ := (root.sub target).locate_of_slash (c := 'l') hslash
    (by rw [claimFile, ← privateFile, toList_privateFile]; rfl) (by decide) (by decide)
  have hfollow : disk.follow? ((root.sub target).locate (claimFile claim)).way = .ok _ :=
    (Entry.look?_eq_ok ((root.sub target).plain_claim claim) hlook).1
  rw [Disk.Location.way, hfolder, List.append_assoc, List.cons_append, List.append_cons] at hfollow
  obtain ⟨es, hes⟩ := Entry.leadsTo_of_follow? hfollow (by simp)
  exact hdisk.not_leadsTo htarget hfront es hes

/-- The guard refuses without a change, or it has read a record with the token. -/
theorem guard_cases (d : Folder) (target : String) (lock : Lock) (disk : Entry) :
    (∃ e, (d.guard target lock).run Disk.answer disk = (.error e, disk)) ∨
      ∃ bytes current, Disk.read disk (d.file Target.lockFile) = .ok bytes ∧
        Lock.ofBytes? bytes = some current ∧ current.token = lock.token := by
  rw [guard_run]
  by_cases htoken : Lock.tokenIn? (Disk.read disk (d.file Target.lockFile)).toOption =
      some lock.token
  · obtain ⟨current, hcurrent, htoken⟩ := Option.map_eq_some_iff.1 htoken
    obtain ⟨bytes, hbytes, hrecord⟩ := Option.bind_eq_some_iff.1 hcurrent
    cases hread : Disk.read disk (d.file Target.lockFile) with
    | error fault =>
      rw [hread] at hbytes
      cases hbytes
    | ok found =>
      rw [hread] at hbytes
      cases hbytes
      exact .inr ⟨bytes, current, rfl, hrecord, htoken⟩
  · obtain ⟨-, e, he, -⟩ := @guard_refused d disk lock target htoken
    rw [guard_run] at he
    exact .inl ⟨e, Prod.ext he rfl⟩

/-! ## What a call leaves -/

/-- What an answer has told is what stands in the folders then. -/
def Told (root : Folder) (c : Chronicle) (r : Request) (reply : Result r.Yield) (disk : Entry) :
    Prop :=
  ∃ folders, Filled root.way folders disk ∧ root.Houses folders (c.note r reply)

section

variable {r : Request} {a : Attempt Disk.effects r.Yield} {e : Error}
  (hdisk : Filled root.way folders disk)
include hdisk

theorem told_of_yields {reply : Result r.Yield} (ha : Yields root.way a folders reply folders')
    (h : root.Houses folders' (c.note r reply)) : a.Ends Disk.answer disk (root.Told c r) := by
  refine (ha disk hdisk).imp ?_
  rintro _ disk' ⟨rfl, hdisk'⟩
  exact ⟨folders', hdisk', h⟩

theorem told_of_yields_error (h : root.Houses folders c)
    (ha : Yields root.way a folders (.error e) folders) :
    a.Ends Disk.answer disk (root.Told c r) :=
  told_of_yields hdisk ha (by rw [Chronicle.note_error]; exact h)

theorem told_of_run (h : root.Houses folders c)
    (ha : a.run Disk.answer disk = (.error e, disk)) : a.Ends Disk.answer disk (root.Told c r) := by
  unfold Attempt.Ends
  rw [ha]
  exact ⟨folders, hdisk, by rw [Chronicle.note_error]; exact h⟩

end

section

variable (hvalid : Target.isValid target = true) (hdisk : Filled root.way folders disk)
  (h : root.Houses folders c)
include hvalid hdisk h

theorem acquire_told (hadmits : Admitted root.way target → root.Admits caller target)
    (staleAfter : Nat) : (root.acquire caller staleAfter target).Ends Disk.answer disk
      (root.Told c (.acquire target)) := by
  by_cases hadmitted : Admitted root.way target
  · have hadmits := hadmits hadmitted
    have hsettled : Settled (filesOf folders target) := settled_of_file? (h.get?_filesOf target)
    have hmake : Yields root.way (ask (.makeFolder (root.sub target).way)) folders (.ok ())
        (folders.insert target (filesOf folders target)) :=
      yields_ask (Disk.answers_makeFolder (plain_of_isValid hvalid) hadmitted)
    cases hget : (filesOf folders target).get? Target.lockFile with
    | none =>
      exact told_of_yields hdisk (yields_acquire_free hadmits hvalid hsettled hmake hget)
        (h.hold hadmits hvalid _)
    | some record =>
      cases hrecord : Lock.ofBytes? record with
      | none =>
        have ha : Yields root.way (root.acquire caller staleAfter target) folders _ _ :=
          yields_acquire_unreadable hadmits hvalid hsettled hmake hget hrecord
        rw [insert_filesOf hget] at ha
        exact told_of_yields_error hdisk h ha
      | some current =>
        by_cases hstale : current.isStale caller.now staleAfter
        · exact told_of_yields hdisk
            (yields_acquire_stale hadmits hvalid hsettled hmake hget hrecord hstale)
            (h.hold hadmits hvalid _)
        · have ha := yields_acquire_held hadmits hvalid hsettled hmake hget hrecord hstale
          rw [insert_filesOf hget] at ha
          exact told_of_yields_error hdisk h ha
  · obtain ⟨e, ha⟩ := acquire_run_of_refused hvalid hdisk hadmitted staleAfter
    exact told_of_run hdisk h ha

theorem release_told (lock : Lock) : (root.release caller target lock).Ends Disk.answer disk
    (root.Told c (.release target lock)) := by
  have hplain := plain_of_isValid hvalid
  cases hlook : disk.look? ((root.sub target).file Target.lockFile) with
  | error fault =>
    obtain ⟨e, ha⟩ := release_run_of_rename hvalid caller lock
      (by rw [Disk.rename, hlook])
    exact told_of_run hdisk h ha
  | ok x =>
    cases hlook' : disk.look? ((root.sub target).locate (claimFile (caller.lock 0))) with
    | error fault =>
      obtain ⟨e, ha⟩ := release_run_of_rename hvalid caller lock
        (by rw [Disk.rename, hlook, hlook'])
      exact told_of_run hdisk h ha
    | ok y =>
      rw [locate_of_single _ fun hslash =>
        look?_claim_of_slash hplain hdisk hslash hlook'] at hlook'
      obtain ⟨files, hfiles, -, hlockFile⟩ := hdisk.of_look? hplain plain_lockFile hlook
      obtain ⟨-, -, -, hclaim⟩ := hdisk.of_look? hplain (plain_claimFile _) hlook'
      have hsettled : Settled files := settled_of_file? (h.get? hfiles)
      cases hget : files.get? Target.lockFile with
      | none =>
        exact told_of_yields_error hdisk h (yields_release_missing hvalid hlockFile hclaim
          (by rw [fileOf?, hfiles]; exact hget))
      | some record =>
        have hfolder := Dict.insert_of_get? hfiles
        rw [← hfolder] at hdisk
        have hhouses := hfolder.symm ▸ h
        cases hrecord : Lock.ofBytes? record with
        | none =>
          exact told_of_yields_error hdisk hhouses
            (yields_release_unreadable hvalid hlockFile hclaim hsettled hget hrecord)
        | some current =>
          by_cases htoken : current.token = lock.token
          · have hstate := h.usable target files hfiles Target.stateFile (by simp [ownFiles])
            exact told_of_yields hdisk (yields_release hvalid hlockFile hclaim hsettled hget
              hrecord hstate htoken) (h.free hfiles)
          · exact told_of_yields_error hdisk hhouses
              (yields_release_other hvalid hlockFile hclaim hsettled hget hrecord htoken)

/-- A change behind the guard is refused there, or it is made for the lock on record. -/
theorem change_told {r : Request} {a : Attempt Disk.effects r.Yield} (lock : Lock)
    (hrefused : ∀ e, ((root.sub target).guard target lock).run Disk.answer disk =
      (.error e, disk) → a.run Disk.answer disk = (.error e, disk))
    (hmade : ∀ files record, folders.get? target = some files →
      files.get? Target.lockFile = some record →
      Yields root.way ((root.sub target).guard target lock) (folders.insert target files) (.ok ())
        (folders.insert target files) →
      ∃ reply folders', Yields root.way a (folders.insert target files) reply folders' ∧
        root.Houses folders' (c.note r reply)) :
    a.Ends Disk.answer disk (root.Told c r) := by
  rcases guard_cases (root.sub target) target lock disk with
    ⟨e, hguard⟩ | ⟨record, current, hread, hrecord, htoken⟩
  · exact told_of_run hdisk h (hrefused e hguard)
  · have hlook : disk.look? ((root.sub target).file Target.lockFile) = .ok (some (.file record)) :=
      Disk.look?_of_read hread
    obtain ⟨files, hfiles, hx, hlockFile⟩ :=
      hdisk.of_look? (plain_of_isValid hvalid) plain_lockFile hlook
    have hget : files.get? Target.lockFile = some record := by
      cases hget : files.get? Target.lockFile with
      | none =>
        rw [hget] at hx
        cases hx
      | some bytes =>
        rw [hget] at hx
        cases hx
        rfl
    have hguard : Yields root.way ((root.sub target).guard target lock)
        (folders.insert target files) _ _ := yields_guard hlockFile hget hrecord
    rw [verify, Option.map_some, if_pos (congrArg some htoken)] at hguard
    obtain ⟨reply, folders', ha, hhouses⟩ := hmade files record hfiles hget hguard
    rw [← Dict.insert_of_get? hfiles] at hdisk
    exact told_of_yields hdisk ha hhouses

theorem persist_told (bytes : ByteArray) (lock : Lock) :
    (root.persist target bytes lock).Ends Disk.answer disk
      (root.Told c (.persist target bytes lock)) := by
  refine change_told hvalid hdisk h lock (fun e hguard => ?_)
    fun files record hfiles hget hguard => ?_
  · rw [persist, target_of_isValid hvalid]
    exact (Attempt.run_bind_ok _ rfl).trans (Attempt.run_bind_error _ hguard)
  · have husable (n : String) (hn : n ∈ ownFiles) := h.usable target files hfiles n hn
    have hsettled : Settled files := settled_of_file? (h.get? hfiles)
    exact ⟨.ok (), _, yields_persist hvalid (husable _ (by simp [ownFiles]))
      (husable _ (by simp [ownFiles])) hguard (husable _ (by simp [ownFiles])) hsettled bytes,
      h.put hfiles hget bytes⟩

theorem delete_told (lock : Lock) : (root.delete target lock).Ends Disk.answer disk
    (root.Told c (.delete target lock)) := by
  refine change_told hvalid hdisk h lock (fun e hguard => ?_)
    fun files record hfiles hget hguard => ?_
  · rw [delete, target_of_isValid hvalid]
    exact (Attempt.run_bind_ok _ rfl).trans (Attempt.run_bind_error _ hguard)
  · have husable (n : String) (hn : n ∈ ownFiles) := h.usable target files hfiles n hn
    exact ⟨.ok (), _, yields_delete hvalid (husable _ (by simp [ownFiles]))
      (husable _ (by simp [ownFiles])) hguard, h.drop hfiles hget⟩

end

/-! ## Histories -/

/-- The disk takes the files of a call for a lock, if it takes the folder of the target at all. -/
def Fits (root : Folder) (caller : Caller) : Request → Prop
  | .acquire target =>
    Target.isValid target → Admitted root.way target → root.Admits caller target
  | _ => True

theorem storage_told (root : Folder) (staleAfter : Nat) {r : Request} (hfits : root.Fits caller r)
    (hdisk : Filled root.way folders disk) (h : root.Houses folders c) :
    root.Told c r (root.storage caller staleAfter r disk).1
      (root.storage caller staleAfter r disk).2 := by
  have hkept {reply : Result r.Yield} (hnote : c.note r reply = c) : root.Told c r reply disk :=
    ⟨folders, hdisk, hnote.symm ▸ h⟩
  by_cases hvalid : ∀ target, r.target? = some target → Target.isValid target
  · cases r with
    | acquire target =>
      have hvalid := hvalid target rfl
      exact acquire_told hvalid hdisk h (hfits hvalid) staleAfter
    | release target lock => exact release_told (hvalid target rfl) hdisk h lock
    | load target =>
      rw [storage, perform, load_run]
      exact hkept (by cases root.document target disk <;> rfl)
    | persist target bytes lock => exact persist_told (hvalid target rfl) hdisk h bytes lock
    | delete target lock => exact delete_told (hvalid target rfl) hdisk h lock
    | list =>
      have hlist : (root.storage caller staleAfter .list disk).2 = disk := list_ends root disk
      rw [hlist]
      exact hkept (by cases (root.storage caller staleAfter .list disk).1 <;> rfl)
  · simp only [not_forall] at hvalid
    obtain ⟨target, htarget, hvalid⟩ := hvalid
    rw [storage, perform_of_invalid htarget hvalid]
    exact hkept (c.note_error r _)

/-- A call: who makes it, when locks are stale then, and what is asked. -/
structure Call where
  caller : Caller
  staleAfter : Nat
  request : Request

/-- What calls leave that are made one after the other, and what their answers tell. -/
def history (root : Folder) : List Call → Entry × Chronicle → Entry × Chronicle
  | [], s => s
  | call :: calls, (disk, c) =>
    let answer := root.storage call.caller call.staleAfter call.request disk
    root.history calls (answer.2, c.note call.request answer.1)

theorem history_houses {calls : List Call}
    (hfits : ∀ call ∈ calls, root.Fits call.caller call.request)
    (hdisk : Filled root.way folders disk) (h : root.Houses folders c) :
    ∃ folders', Filled root.way folders' (root.history calls (disk, c)).1 ∧
      root.Houses folders' (root.history calls (disk, c)).2 := by
  induction calls generalizing disk c folders with
  | nil => exact ⟨folders, hdisk, h⟩
  | cons call calls ih =>
    obtain ⟨folders', hdisk', h'⟩ :=
      root.storage_told call.staleAfter (hfits call List.mem_cons_self) hdisk h
    exact ih (fun other hother => hfits other (List.mem_cons_of_mem _ hother)) hdisk' h'

/-- Below the root every target that has a file has a folder with its files, and nothing else is
there. -/
def HasTree (root : Folder) (disk : Entry) (c : Chronicle) : Prop :=
  ∃ folders, LeadsTo disk root.way (Disk.folderEntries folders) ∧
    (∀ target files, folders.get? target = some files → files ≠ {}) ∧
    ∀ target name, fileOf? folders target name = c.file? target name

/-- Folders without an empty one are told by their files. -/
theorem folders_ext (hnonempty : ∀ t files, folders.get? t = some files → files ≠ {})
    (hnonempty' : ∀ t files, folders'.get? t = some files → files ≠ {})
    (hfiles : ∀ t n, fileOf? folders t n = fileOf? folders' t n) : folders = folders' := by
  have hnone {files : Dict ByteArray} (h : ∀ n, files.get? n = none) : files = {} :=
    Dict.ext_get? h
  refine Dict.ext_get? fun t => ?_
  have hfiles := hfiles t
  simp only [fileOf?] at hfiles
  cases hget : folders.get? t with
  | none =>
    cases hget' : folders'.get? t with
    | none => rfl
    | some files' =>
      rw [hget, hget'] at hfiles
      exact absurd (hnone fun n => (hfiles n).symm) (hnonempty' t files' hget')
  | some files =>
    cases hget' : folders'.get? t with
    | none =>
      rw [hget, hget'] at hfiles
      exact absurd (hnone hfiles) (hnonempty t files hget)
    | some files' =>
      rw [hget, hget'] at hfiles
      exact congrArg some (Dict.ext_get? hfiles)

/-- There is one tree of a chronicle. -/
theorem HasTree.unique {disk' : Entry} {es es' : List (String × Entry)} (h : root.HasTree disk c)
    (h' : root.HasTree disk' c) (hes : LeadsTo disk root.way es)
    (hes' : LeadsTo disk' root.way es') : es = es' := by
  obtain ⟨folders, hleads, hnonempty, hfiles⟩ := h
  obtain ⟨folders', hleads', hnonempty', hfiles'⟩ := h'
  rw [hleads.unique hes, hleads'.unique hes',
    folders_ext hnonempty hnonempty' fun t n => (hfiles t n).trans (hfiles' t n).symm]

/-- After each of some calls on a folder that was empty, what stands below it is the tree of what the
answers have told by then. -/
theorem history_hasTree (root : Folder) (hempty : LeadsTo disk root.way []) {calls : List Call}
    (hfits : ∀ call ∈ calls, root.Fits call.caller call.request) (n : Nat) :
    root.HasTree (root.history (calls.take n) (disk, .empty)).1
      (root.history (calls.take n) (disk, .empty)).2 := by
  obtain ⟨folders, hdisk, h⟩ :=
    history_houses (fun call hcall => hfits call (List.mem_of_mem_take hcall))
      (Disk.filled_empty hempty) root.houses_empty
  exact ⟨folders, hdisk.leads, h.nonempty, h.files⟩

/-- A document is replaced, the lock is broken, and its first holder cannot give it up any more. -/
def brokenCalls : List Call :=
  let ann := countingCaller "ann"
  [⟨ann 0, 3600, .acquire "prod"⟩, ⟨ann 1, 3600, .persist "prod" "one".toUTF8 ((ann 0).lock 0)⟩,
    ⟨ann 2, 3600, .persist "prod" "two".toUTF8 ((ann 0).lock 0)⟩, ⟨ann 3, 0, .acquire "prod"⟩,
    ⟨ann 4, 3600, .release "prod" ((ann 0).lock 0)⟩]

theorem history_hasTree_broken :
    HasTree ⟨["states"], "states"⟩
        (history ⟨["states"], "states"⟩ (brokenCalls.take 5)
          (.folder [("states", .folder [])], .empty)).1
        (history ⟨["states"], "states"⟩ (brokenCalls.take 5)
          (.folder [("states", .folder [])], .empty)).2 ∧
      (history ⟨["states"], "states"⟩ (brokenCalls.take 5)
        (.folder [("states", .folder [])], .empty)).2.file? "prod" backupFile =
          some "one".toUTF8 := by
  have hempty : LeadsTo (.folder [("states", .folder [])]) ["states"] [] := ⟨rfl, rfl⟩
  have hfits : ∀ call ∈ brokenCalls, Fits ⟨["states"], "states"⟩ call.caller call.request := by
    simp only [brokenCalls, List.forall_mem_cons]
    exact ⟨fun _ _ => admits_countingCaller (by decide), trivial, trivial,
      fun _ _ => admits_countingCaller (by decide), trivial, nofun⟩
  exact ⟨history_hasTree ⟨["states"], "states"⟩ hempty hfits 5, by decide +kernel⟩

/-! ## A folder without a file -/

/-- The folder of a target is made, and stays when the disk does not take the record. -/
theorem yields_acquire_of_refused {fault : Disk.Fault} (hvalid : Target.isValid target = true)
    (hadmitted : Admitted root.way target) (hget : folders.get? target = none)
    (hsingle : '/' ∉ (caller.token 0).toList)
    (hcheck : Entry.check (root.way ++ [target] ++ [recordFile (caller.lock 0)]) = .error fault)
    (staleAfter : Nat) :
    Yields root.way (root.acquire caller staleAfter target) folders (.error (.disk fault))
      (folders.insert target {}) := by
  have hmake : Yields root.way (ask (.makeFolder (root.sub target).way)) folders (.ok ())
      (folders.insert target {}) := by
    have hmade : Disk.Answers root.way (.makeFolder (root.way ++ [target])) folders _ _ :=
      Disk.answers_makeFolder (plain_of_isValid hvalid) hadmitted
    rw [hget] at hmade
    exact yields_ask hmade
  have hwrite : Yields root.way
      (ask (.write ((root.sub target).file (recordFile (caller.lock 0))) (caller.lock 0).toBytes))
      (folders.insert target {}) (.error (.disk fault)) (folders.insert target {}) :=
    yields_ask_error (Disk.answers_write_refused hcheck _)
  rw [← locate_recordFile _ hsingle] at hwrite
  exact yields_target_bind hvalid
    (hmake.bind (Yields.bind_error (Yields.bind_error (Yields.bind_error hwrite))))

/-- A folder without a file is not in the tree that the answer tells of. -/
theorem history_not_hasTree {fault : Disk.Fault} (hempty : LeadsTo disk root.way [])
    (hvalid : Target.isValid target = true) (hadmitted : Admitted root.way target)
    (hsingle : '/' ∉ (caller.token 0).toList)
    (hcheck : Entry.check (root.way ++ [target] ++ [recordFile (caller.lock 0)]) = .error fault)
    (staleAfter : Nat) :
    ¬root.HasTree (root.history [⟨caller, staleAfter, .acquire target⟩] (disk, .empty)).1
      (root.history [⟨caller, staleAfter, .acquire target⟩] (disk, .empty)).2 := by
  have hget : (Dict.empty : Dict (Dict ByteArray)).get? target = none := rfl
  obtain ⟨-, hdisk⟩ := yields_acquire_of_refused hvalid hadmitted hget hsingle hcheck
    staleAfter disk
    (Disk.filled_empty hempty)
  rintro ⟨folders, hleads, hnonempty, -⟩
  have hfolder := congrArg (Entries.get? target) (hdisk.leads.unique hleads)
  rw [Disk.get?_folderEntries, Disk.get?_folderEntries, Dict.get?_insert, if_pos rfl,
    Option.map_some] at hfolder
  obtain ⟨files, hfiles, hentries⟩ := Option.map_eq_some_iff.1 hfolder
  exact hnonempty target files hfiles (Disk.fileEntries_eq_nil.1 (Entry.folder.inj hentries))

/-- Folders on the way to one that is empty. -/
def nested : List String → Entry
  | [] => .folder []
  | n :: rest => .folder [(n, nested rest)]

theorem at?_nested (way rest : List String) : (nested (way ++ rest)).at? way = .ok (nested rest) := by
  induction way with
  | nil => cases rest <;> rfl
  | cons n way ih =>
    have hget : Entries.get? n [(n, nested (way ++ rest))] = some (nested (way ++ rest)) := by
      simp [Entries.get?]
    rw [List.cons_append, nested, Entry.at?, hget]
    exact ih

theorem leadsTo_nested {way : List String} (hcheck : Entry.check way = .ok ())
    (hnames : ∀ n ∈ way, Disk.Plain n ∧ n.utf8ByteSize ≤ Disk.nameLimit) :
    LeadsTo (nested way) way [] := by
  have hsteps (here rest : List String) (h : here ++ rest = way) :
      rest.foldlM (nested way).step? here = .ok way := by
    induction rest generalizing here with
    | nil =>
      rw [List.append_nil] at h
      rw [h]
      rfl
    | cons n rest ih =>
      obtain ⟨hplain, hlength⟩ := hnames n (h ▸ List.mem_append_right _ List.mem_cons_self)
      have hat := at?_nested here (n :: rest)
      rw [h] at hat
      have hstep : (nested way).step? here n = .ok (here ++ [n]) := by
        rw [Entry.step?, hat]
        simp only [nested]
        rw [if_neg hplain.not_up, if_neg hplain.not_here, if_neg (Nat.not_lt.2 hlength)]
      rw [List.foldlM_cons, hstep]
      exact ih (here ++ [n]) (by rw [List.append_assoc, List.singleton_append, h])
  have hfollow : (nested way).follow? way = .ok way := by
    rw [Entry.follow?_of_check hcheck]
    exact hsteps [] way rfl
  have hplace := Entry.follow?_eq_ok hfollow
  refine ⟨by rw [← hplace]; exact hfollow, ?_⟩
  rw [← hplace]
  have hat := at?_nested way []
  rw [List.append_nil] at hat
  exact hat

/-- A folder that is so far down that only short names are taken in it. -/
def deepWay : List String :=
  List.replicate 16 (Place.lettered 252)

theorem check_deepWay {rest : List String} (hrest : ∀ n ∈ rest, Disk.isName n = true) :
    Entry.check (deepWay ++ rest) =
      if Disk.wayLimit ≤ 4048 + Disk.wayLength rest then .error .nameTooLong else .ok () := by
  have hlength (k : Nat) : Disk.wayLength (List.replicate k (Place.lettered 252)) = 253 * k := by
    induction k with
    | zero => rfl
    | succ k ih =>
      rw [List.replicate_succ, Disk.wayLength, ih, Place.utf8ByteSize_lettered]
      omega
  have hnames : ∀ n ∈ deepWay ++ rest, Disk.isName n = true := by
    intro n hn
    rcases List.mem_append.1 hn with hn | hn
    · rw [List.eq_of_mem_replicate hn]
      exact Place.isName_lettered 252
    · exact hrest n hn
  rw [Entry.check_of_names hnames, Entry.wayLength_append, deepWay, hlength]

/-- The lock of a target is not acquired, and the folder of the target stays. -/
theorem history_not_hasTree_deep :
    LeadsTo (nested deepWay) deepWay [] ∧
      ¬HasTree ⟨deepWay, "states"⟩
        (history ⟨deepWay, "states"⟩ [⟨countingCaller "ann" 40, 3600, .acquire "prod"⟩]
          (nested deepWay, .empty)).1
        (history ⟨deepWay, "states"⟩ [⟨countingCaller "ann" 40, 3600, .acquire "prod"⟩]
          (nested deepWay, .empty)).2 := by
  have hempty : LeadsTo (nested deepWay) deepWay [] := by
    refine leadsTo_nested ?_ fun n hn => ?_
    · have hcheck := @check_deepWay [] nofun
      rw [List.append_nil] at hcheck
      exact hcheck.trans (if_neg (by decide))
    · rw [List.eq_of_mem_replicate hn]
      exact ⟨plain_of_isValid (Place.isValid_lettered (by decide)),
        by rw [Place.utf8ByteSize_lettered]; decide⟩
  have hadmitted : Admitted deepWay "prod" :=
    ⟨by decide, (check_deepWay (by decide)).trans (if_neg (by decide))⟩
  have hcheck : Entry.check (deepWay ++ ["prod"] ++
      [recordFile ((countingCaller "ann" 40).lock 0)]) = .error .nameTooLong := by
    rw [List.append_assoc]
    exact (check_deepWay (by decide)).trans (if_pos (by decide))
  exact ⟨hempty, @history_not_hasTree ⟨deepWay, "states"⟩ (countingCaller "ann" 40) "prod"
    (nested deepWay) .nameTooLong hempty (by decide) hadmitted (by decide) hcheck 3600⟩

end Folder

end ClusterLedger.Backend
