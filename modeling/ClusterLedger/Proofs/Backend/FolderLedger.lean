import ClusterLedger.Proofs.Backend.FolderRuns
import ClusterLedger.Proofs.Backend.Ledger

/-!
# The ledger in a folder

Below a folder that was empty the files of the targets hold their locks and documents. Between two
calls there are no other files but backups, and of them nothing is told.
-/
namespace ClusterLedger.Backend.Folder

open Disk (Entry Filled Usable)

variable {root : Folder} {caller : Caller} {target name : String} {lock : Lock} {bytes : ByteArray}
  {folders folders' : Dict (Dict ByteArray)} {files files' : Dict ByteArray} {disk : Entry}
  {l l' : Ledger} {α : Type}

/-- What is said of a document that is not there. -/
def absent (root : Folder) (target : String) : Error :=
  match Entry.check (root.way ++ [target] ++ [Target.stateFile]) with
  | .error fault => .disk fault
  | .ok () => if Disk.nameLimit < target.utf8ByteSize then .disk .nameTooLong
    else .missing (.snapshot target)

/-- How a folder answers: the fourth record is the lock when a stale one was in the way. -/
def manner (root : Folder) : Manner where
  second := 3
  absent := root.absent

/-- The folders of targets hold a ledger. -/
structure Fills (root : Folder) (folders : Dict (Dict ByteArray)) (l : Ledger) : Prop where
  proper : l.Proper
  usable : ∀ target files, folders.get? target = some files →
    Usable root.way target Target.stateFile
  files : ∀ target name, name ≠ backupFile → fileOf? folders target name = l.bytes? target name

/-- A folder on a disk holds a ledger. -/
def Holds (root : Folder) (disk : Entry) (l : Ledger) : Prop :=
  ∃ folders, Filled root.way folders disk ∧ root.Fills folders l

theorem holds_empty (h : Disk.Entry.LeadsTo disk root.way []) : root.Holds disk .empty := by
  refine ⟨{}, Disk.filled_empty h, Ledger.proper_empty, nofun, fun target name _ => ?_⟩
  rw [Ledger.bytes?]
  split
  · rfl
  · split <;> rfl

theorem Holds.proper (h : root.Holds disk l) : l.Proper := by
  obtain ⟨folders, -, hfills⟩ := h
  exact hfills.proper

/-- A run that leaves another ledger. -/
theorem follows_of_yields {a : Attempt Disk.effects α} {r : Result α}
    (hdisk : Filled root.way folders disk) (ha : Yields root.way a folders r folders')
    (hfills : root.Fills folders' l') :
    a.Ends Disk.answer disk (Follows root.Holds (r, l')) :=
  (ha disk hdisk).imp fun _ _ h => ⟨h.1, folders', h.2, hfills⟩

/-! ## The files of a target -/

/-- The files of a target, if it has a folder. -/
def filesOf (folders : Dict (Dict ByteArray)) (target : String) : Dict ByteArray :=
  (folders.get? target).getD {}

theorem fileOf?_eq (folders : Dict (Dict ByteArray)) (target name : String) :
    fileOf? folders target name = (filesOf folders target).get? name := by
  rw [fileOf?, filesOf]
  cases folders.get? target <;> rfl

theorem Fills.lockFile (h : root.Fills folders l) (target : String) :
    (filesOf folders target).get? Target.lockFile = (l.locks.get? target).map Lock.toBytes := by
  rw [← fileOf?_eq, h.files target _ (by decide), Ledger.bytes?_lockFile]

theorem Fills.stateFile (h : root.Fills folders l) (target : String) :
    (filesOf folders target).get? Target.stateFile = l.documents.get? target := by
  rw [← fileOf?_eq, h.files target _ (by decide), Ledger.bytes?_stateFile]

theorem Fills.settled (h : root.Fills folders l) (target : String) :
    Settled (filesOf folders target) := by
  intro n hlock hstate hbackup
  rw [← fileOf?_eq, h.files target n hbackup, Ledger.bytes?, if_neg hlock, if_neg hstate]

/-- The record of a lock stands on the disk. -/
theorem Holds.lockFile (h : root.Holds disk l) (hvalid : Target.isValid target = true) :
    disk.file? ((root.sub target).file Target.lockFile).place =
      (l.locks.get? target).map Lock.toBytes := by
  obtain ⟨folders, hdisk, hfills⟩ := h
  have hfile := hdisk.file? (plain_of_isValid hvalid) Target.lockFile
  exact (hfile.trans (hfills.files target _ (by decide))).trans (l.bytes?_lockFile target)

/-- There is a folder for a target that has a file. -/
theorem insert_filesOf (hget : (filesOf folders target).get? name = some bytes) :
    folders.insert target (filesOf folders target) = folders := by
  rw [filesOf] at hget ⊢
  cases hfolder : folders.get? target with
  | none =>
    rw [hfolder] at hget
    cases hget
  | some files => exact Dict.insert_of_get? hfolder

/-- One file of a target is another one. -/
theorem Fills.replace (h : root.Fills folders l) (hproper : l'.Proper) {value : Option ByteArray}
    (hl : l.Replaces l' target name value) (husable : ∀ t files, folders'.get? t = some files →
      Usable root.way t Target.stateFile)
    (hother : ∀ t, t ≠ target → folders'.get? t = folders.get? t)
    (hfiles : ∀ n, n ≠ backupFile → fileOf? folders' target n =
      if name = n then value else fileOf? folders target n) : root.Fills folders' l' := by
  refine ⟨hproper, husable, fun t n hn => ?_⟩
  rw [hl]
  by_cases ht : target = t
  · subst ht
    rw [hfiles n hn, h.files target n hn]
    simp only [true_and]
  · rw [if_neg fun he => ht he.1, ← h.files t n hn, fileOf?, hother t (Ne.symm ht)]
    rfl

theorem Fills.insert (h : root.Fills folders l) (hproper : l'.Proper) {value : Option ByteArray}
    (hl : l.Replaces l' target name value) (husable : Usable root.way target Target.stateFile)
    (hfiles : ∀ n, n ≠ backupFile → files'.get? n =
      if name = n then value else (filesOf folders target).get? n) :
    root.Fills (folders.insert target files') l' := by
  refine h.replace hproper hl (fun t files hget => ?_) (fun t ht => ?_) fun n hn => ?_
  · rw [Dict.get?_insert] at hget
    split at hget
    · next ht => exact ht ▸ husable
    · exact h.usable t files hget
  · rw [Dict.get?_insert, if_neg (Ne.symm ht)]
  · rw [fileOf?_insert, hfiles n hn, fileOf?_eq]

/-! ## Locks -/

section

variable (hadmits : root.Admits caller target) (hvalid : Target.isValid target = true)
  (hdisk : Filled root.way folders disk) (hfills : root.Fills folders l)
include hadmits hvalid hfills

theorem Fills.hold (hshows : lock.acquiredAt.Shows) :
    root.Fills (folders.insert target (locked (filesOf folders target) lock))
      (l.hold target lock) :=
  hfills.insert (hfills.proper.hold hvalid hshows) (l.replaces_hold target lock)
    (hadmits.stateFile hvalid) fun n _ => Dict.get?_insert _ _ _ n

/-- The lock is gone, and the folder may be. -/
theorem Fills.free : root.Fills (if unlocked (filesOf folders target) = {} then folders.erase target
      else folders.insert target (unlocked (filesOf folders target))) (l.free target) := by
  have hproper := hfills.proper.free target
  have hreplaces := l.replaces_free target
  split
  · next hempty =>
    refine hfills.replace hproper hreplaces (fun t files hget => ?_) (fun t ht => ?_) fun n hn => ?_
    · rw [Dict.get?_erase] at hget
      split at hget
      · cases hget
      · exact hfills.usable t files hget
    · rw [Dict.get?_erase, if_neg (Ne.symm ht)]
    · have hnone : (unlocked (filesOf folders target)).get? n = none := by
        rw [hempty]
        rfl
      rw [fileOf?, Dict.get?_erase, if_pos rfl, fileOf?_eq]
      rw [unlocked, Dict.get?_erase] at hnone
      exact hnone.symm
  · exact hfills.insert hproper hreplaces (hadmits.stateFile hvalid)
      fun n _ => Dict.get?_erase _ _ n

include hdisk

theorem acquire_follows (hshows : caller.now.Shows) (staleAfter : Nat) :
    (root.acquire caller staleAfter target).Ends Disk.answer disk
      (Follows root.Holds (l.acquire 3 caller staleAfter target)) := by
  have hsettled := hfills.settled target
  have hlock := hfills.lockFile target
  have hmake : Yields root.way (ask (.makeFolder (root.sub target).way)) folders (.ok ())
      (folders.insert target (filesOf folders target)) :=
    yields_ask (Disk.answers_makeFolder (plain_of_isValid hvalid) hadmits.folder)
  rw [Ledger.acquire]
  cases hget : l.locks.get? target with
  | none =>
    rw [hget] at hlock
    exact follows_of_yields hdisk (yields_acquire_free hadmits hvalid hsettled hmake hlock)
      (hfills.hold hadmits hvalid hshows)
  | some current =>
    rw [hget] at hlock
    have hbytes := hfills.proper.ofBytes? hget
    by_cases hstale : current.isStale caller.now staleAfter
    · simp only [if_pos hstale]
      exact follows_of_yields hdisk
        (yields_acquire_stale hadmits hvalid hsettled hmake hlock hbytes hstale)
        (hfills.hold hadmits hvalid hshows)
    · have hheld := yields_acquire_held hadmits hvalid hsettled hmake hlock hbytes hstale
      rw [insert_filesOf hlock] at hheld
      simp only [if_neg hstale]
      exact follows_of_yields hdisk hheld hfills

theorem release_follows (lock : Lock) : (root.release caller target lock).Ends Disk.answer disk
    (Follows root.Holds (l.change target lock (l.free target))) := by
  have hsettled := hfills.settled target
  have hlock := hfills.lockFile target
  have hlockFile := hadmits.lockFile hvalid
  have hclaim := hadmits.claimFile hvalid (k := 0) (by decide)
  rw [Ledger.change, verify]
  cases hget : l.locks.get? target with
  | none =>
    rw [hget] at hlock
    exact follows_of_yields hdisk (yields_release_missing hvalid hlockFile hclaim
      ((fileOf?_eq _ _ _).trans hlock)) hfills
  | some current =>
    rw [hget] at hlock
    have hbytes := hfills.proper.ofBytes? hget
    have hfolder := insert_filesOf hlock
    rw [← hfolder] at hdisk
    by_cases htoken : current.token = lock.token
    · rw [Option.map_some, if_pos (congrArg some htoken)]
      exact follows_of_yields hdisk (yields_release hvalid hlockFile hclaim hsettled hlock hbytes
        (hadmits.stateFile hvalid) htoken) (hfills.free hadmits hvalid)
    · rw [Option.map_some, if_neg fun he => htoken (Option.some.inj he)]
      exact follows_of_yields hdisk
        (yields_release_other hvalid hlockFile hclaim hsettled hlock hbytes htoken)
        (hfolder.symm ▸ hfills)

end

/-! ## Documents -/

section

variable (hadmits : root.Admits caller target) (hvalid : Target.isValid target = true)
  (hfills : root.Fills folders l)
include hadmits hvalid hfills

theorem guard_yields (lock : Lock) :
    Yields root.way ((root.sub target).guard target lock) folders
      (verify target lock (l.locks.get? target)) folders := by
  have hlockFile := hadmits.lockFile hvalid
  have hlock := hfills.lockFile target
  cases hget : l.locks.get? target with
  | none =>
    rw [hget] at hlock
    exact yields_guard_missing hlockFile ((fileOf?_eq _ _ _).trans hlock)
  | some current =>
    rw [hget] at hlock
    rw [← insert_filesOf hlock]
    exact yields_guard hlockFile hlock (hfills.proper.ofBytes? hget)

/-- A change of the document is refused by the guard, or made behind it. -/
theorem change_follows {a : Attempt Disk.effects Unit} {document : Option ByteArray}
    (hproper : l'.Proper) (hl : l.Replaces l' target Target.stateFile document)
    (hdisk : Filled root.way folders disk)
    (hrefused : ∀ e, Yields root.way ((root.sub target).guard target lock) folders (.error e)
      folders → Yields root.way a folders (.error e) folders)
    (hmade : ∀ (files : Dict ByteArray) (folders : Dict (Dict ByteArray)), Settled files →
      Yields root.way ((root.sub target).guard target lock) (folders.insert target files) (.ok ())
        (folders.insert target files) →
      ∃ files', Rewritten files files' document ∧ Yields root.way a (folders.insert target files)
        (.ok ()) (folders.insert target files')) :
    a.Ends Disk.answer disk (Follows root.Holds (l.change target lock l')) := by
  have hguard := guard_yields hadmits hvalid hfills lock
  rw [Ledger.change]
  cases hverify : verify target lock (l.locks.get? target) with
  | error e =>
    rw [hverify] at hguard
    exact follows_of_yields hdisk (hrefused e hguard) hfills
  | ok u =>
    rw [hverify] at hguard
    cases hget : l.locks.get? target with
    | none =>
      rw [hget] at hverify
      cases hverify
    | some current =>
      have hlock := hfills.lockFile target
      rw [hget] at hlock
      have hfolder := insert_filesOf hlock
      rw [← hfolder] at hguard hdisk
      obtain ⟨files', hrewritten, ha⟩ := hmade _ folders (hfills.settled target) hguard
      exact follows_of_yields hdisk ha
        (hfills.insert hproper hl (hadmits.stateFile hvalid) hrewritten)

theorem persist_follows (hdisk : Filled root.way folders disk) (lock : Lock) (bytes : ByteArray) :
    (root.persist target bytes lock).Ends Disk.answer disk
      (Follows root.Holds (l.change target lock (l.put target bytes))) :=
  change_follows hadmits hvalid hfills (hfills.proper.put hvalid bytes)
    (l.replaces_put target bytes) hdisk
    (fun _ hguard => yields_target_bind hvalid hguard.bind_error)
    fun _ _ hsettled hguard => ⟨_, rewritten_replacing _ bytes,
      yields_persist hvalid (hadmits.stateFile hvalid) (hadmits.backupFile hvalid) hguard
        (hadmits.stagingFile hvalid) hsettled bytes⟩

theorem delete_follows (hdisk : Filled root.way folders disk) (lock : Lock) :
    (root.delete target lock).Ends Disk.answer disk
      (Follows root.Holds (l.change target lock (l.drop target))) :=
  change_follows hadmits hvalid hfills (hfills.proper.drop target)
    (l.replaces_drop target) hdisk
    (fun _ hguard => yields_target_bind hvalid hguard.bind_error)
    fun _ _ _ hguard => ⟨_, rewritten_dropped _,
      yields_delete hvalid (hadmits.stateFile hvalid) (hadmits.backupFile hvalid) hguard⟩

end

/-! ## Reading -/

theorem documentOf_of_ne (target : String) {fault : Disk.Fault} (h : fault ≠ .missing) :
    documentOf target (.error fault) = .error (.disk fault) := by
  cases fault <;> first | rfl | exact absurd rfl h

theorem usable_stateFile (hvalid : Target.isValid target = true)
    (hcheck : Entry.check (root.way ++ [target] ++ [Target.stateFile]) = .ok ())
    (hlength : target.utf8ByteSize ≤ Disk.nameLimit) :
    Usable root.way target Target.stateFile :=
  ⟨plain_of_isValid hvalid, plain_stateFile, ⟨hlength, Entry.check_of_append hcheck⟩,
    by decide, hcheck⟩

/-- Without a document the error depends on the name of the target alone. -/
theorem document_absent (hvalid : Target.isValid target = true)
    (hdisk : Filled root.way folders disk)
    (hnone : fileOf? folders target Target.stateFile = none) :
    root.document target disk = .error (root.absent target) := by
  rw [document, target_of_isValid hvalid, absent]
  show documentOf target (Disk.read disk ⟨root.way ++ [target], Target.stateFile⟩) = _
  cases hcheck : Entry.check (root.way ++ [target] ++ [Target.stateFile]) with
  | error fault =>
    rw [Disk.read, Entry.look?, Disk.Location.way, Entry.follow?, hcheck]
    exact documentOf_of_ne target (Entry.ne_missing_of_check hcheck)
  | ok u =>
    simp only
    split
    · next hlength =>
      have hlook := hdisk.leads.look?_of_long (plain_of_isValid hvalid) hlength hcheck
      rw [Disk.read, hlook]
      rfl
    · next hlength =>
      have husable := usable_stateFile hvalid hcheck (Nat.le_of_not_lt hlength)
      have hread : Disk.read disk ⟨root.way ++ [target], Target.stateFile⟩ = .error .missing :=
        (Disk.answers_read_missing husable hnone disk hdisk).1
      rw [hread]
      rfl

theorem absent_of_admits (hadmits : root.Admits caller target)
    (hvalid : Target.isValid target = true) :
    root.absent target = .missing (.snapshot target) := by
  have husable := hadmits.stateFile hvalid
  rw [absent, husable.admitsFile.check]
  exact if_neg (Nat.not_lt.2 husable.admitsFolder.length)

theorem document_eq (hvalid : Target.isValid target = true) (hdisk : Filled root.way folders disk)
    (hfills : root.Fills folders l) : root.document target disk = l.load root.absent target := by
  have hstate := hfills.stateFile target
  rw [Ledger.load]
  cases hget : l.documents.get? target with
  | none =>
    rw [hget, ← fileOf?_eq] at hstate
    exact document_absent hvalid hdisk hstate
  | some bytes =>
    rw [hget] at hstate
    have hfolder := insert_filesOf hstate
    cases hfiles : folders.get? target with
    | none =>
      rw [filesOf, hfiles] at hstate
      cases hstate
    | some files =>
      rw [← hfolder] at hdisk
      have hread : Disk.read disk ⟨root.way ++ [target], Target.stateFile⟩ = .ok bytes :=
        (Disk.answers_read (hfills.usable target files hfiles) hstate disk hdisk).1
      rw [document, target_of_isValid hvalid]
      show documentOf target (Disk.read disk ⟨root.way ++ [target], Target.stateFile⟩) = _
      rw [hread]
      rfl

theorem load_follows (hvalid : Target.isValid target = true)
    (hdisk : Filled root.way folders disk) (hfills : root.Fills folders l) :
    (root.load target).Ends Disk.answer disk
      (Follows root.Holds (l.load root.absent target, l)) := by
  have hrun := load_run root target disk
  rw [document_eq hvalid hdisk hfills] at hrun
  unfold Attempt.Ends
  rw [hrun]
  exact ⟨rfl, folders, hdisk, hfills⟩

theorem list_follows (hshown : root.shown ≠ "") (hdisk : Filled root.way folders disk)
    (hfills : root.Fills folders l) :
    root.list.Ends Disk.answer disk (Follows root.Holds (.ok l.documents.keys, l)) := by
  have htargets : Yields root.way (root.targets (folders.keys.map fun name => (name, true))) folders
      (.ok (folders.keys.filter fun name => (fileOf? folders name Target.stateFile).isSome))
      folders := by
    refine yields_targets folders.keys fun name hname => ?_
    obtain ⟨files, hfiles⟩ := Dict.mem_keys.1 hname
    exact ⟨files, hfiles, hfills.usable name files hfiles⟩
  have hkeys : (folders.keys.filter fun name => (fileOf? folders name Target.stateFile).isSome) =
      l.documents.keys := by
    refine Dict.eq_keys ((Dict.keys_sorted folders).filter _) fun name => ?_
    rw [List.mem_filter, Option.isSome_iff_exists, fileOf?_eq, hfills.stateFile name, Dict.mem_keys]
    refine and_iff_right_of_imp ?_
    rintro ⟨bytes, hbytes⟩
    rw [← hfills.stateFile name, ← fileOf?_eq] at hbytes
    obtain ⟨files, hfiles, -⟩ := Option.bind_eq_some_iff.1 hbytes
    exact ⟨files, hfiles⟩
  rw [hkeys] at htargets
  have hlist : Yields root.way root.list folders (.ok l.documents.keys) folders := by
    rw [Folder.list, if_neg hshown]
    refine (yields_attempt (Disk.answers_names root.way folders)).bind (htargets.bind ?_)
    rw [Dict.mergeSort_of_sorted (Dict.keys_sorted _)]
    exact yields_pure _
  exact follows_of_yields hdisk hlist hfills

/-! ## All requests -/

/-- The disk admits what a request may make for a target; reading makes nothing. -/
def AdmitsCall (root : Folder) (caller : Caller) : Request → Prop
  | .acquire target | .release target _ | .persist target _ _ | .delete target _ =>
    Target.isValid target → root.Admits caller target
  | .load _ | .list => True

theorem admitsCall_of_target {r : Request}
    (h : ∀ t, r.target? = some t → Target.isValid t → root.Admits caller t) :
    root.AdmitsCall caller r := by
  cases r with
  | load t => exact trivial
  | list => exact trivial
  | acquire t => exact h t rfl
  | release t lock => exact h t rfl
  | persist t bytes lock => exact h t rfl
  | delete t lock => exact h t rfl

/-- A name that is no target is refused before anything is asked of the disk. -/
theorem perform_of_invalid {staleAfter : Nat} {r : Request} (htarget : r.target? = some target)
    (hvalid : ¬Target.isValid target) (disk : Entry) :
    (root.perform caller staleAfter r).run Disk.answer disk =
      (.error (.invalidTarget target), disk) := by
  have hrefused {β : Type} (f : Folder → Attempt Disk.effects β) :
      (Attempt.ofResult (root.target target) >>= f).run Disk.answer disk =
        (.error (.invalidTarget target), disk) := by
    refine Attempt.run_bind_error _ ?_
    rw [Folder.target, Target.check, if_neg hvalid]
    rfl
  cases r with
  | list => cases htarget
  | acquire t => cases htarget; exact hrefused _
  | release t lock => cases htarget; exact hrefused _
  | load t => cases htarget; exact hrefused _
  | persist t bytes lock => cases htarget; exact hrefused _
  | delete t lock => cases htarget; exact hrefused _

theorem follows_of_invalid {r : Request} (root : Folder) (htarget : r.target? = some target)
    (hvalid : ¬Target.isValid target) {staleAfter : Nat} (h : root.Holds disk l) :
    Follows root.Holds (.error (.invalidTarget target), l) (root.storage caller staleAfter r disk).1
      (root.storage caller staleAfter r disk).2 := by
  rw [storage, perform_of_invalid htarget hvalid]
  exact ⟨rfl, h⟩

/-- A folder answers as the ledger does that is in it. -/
theorem keeps (root : Folder) (hshown : root.shown ≠ "") :
    Keeps root.storage root.manner root.Holds root.AdmitsCall where
  proper h := h.proper
  answers := by
    intro disk l caller r staleAfter h hshows hadmits _
    by_cases hvalid : ∀ target, r.target? = some target → Target.isValid target
    · obtain ⟨folders, hdisk, hfills⟩ := h
      rw [Ledger.answer_of_valid l hvalid]
      cases r with
      | acquire target =>
        have hvalid := hvalid target rfl
        exact acquire_follows (hadmits hvalid) hvalid hdisk hfills hshows staleAfter
      | release target lock =>
        have hvalid := hvalid target rfl
        exact release_follows (hadmits hvalid) hvalid hdisk hfills lock
      | load target => exact load_follows (hvalid target rfl) hdisk hfills
      | persist target bytes lock =>
        have hvalid := hvalid target rfl
        exact persist_follows (hadmits hvalid) hvalid hfills hdisk lock bytes
      | delete target lock =>
        have hvalid := hvalid target rfl
        exact delete_follows (hadmits hvalid) hvalid hfills hdisk lock
      | list => exact list_follows hshown hdisk hfills
    · simp only [not_forall] at hvalid
      obtain ⟨target, htarget, hvalid⟩ := hvalid
      rw [Ledger.answer_of_invalid l htarget hvalid]
      exact root.follows_of_invalid htarget hvalid h

end ClusterLedger.Backend.Folder
