import ClusterLedger.Proofs.Backend.Folder
import ClusterLedger.Proofs.Disk.Filled

/-!
# Runs in a folder of targets

With one caller at a time every operation has one run: the private files that it makes are gone at
its end, and what is left is a change of the three files of a target.
-/
namespace ClusterLedger.Backend.Folder

open Disk (Admitted Answers Filled Usable)

variable {root : Folder} {caller : Caller} {target name : String} {lock stale : Lock}
  {bytes : ByteArray} {folders folders' folders'' : Dict (Dict ByteArray)} {files : Dict ByteArray}
  {way : List String} {α β : Type}

/-! ## Runs -/

/-- From a folder an attempt comes to a result and to a folder. -/
def Yields (way : List String) (a : Attempt Disk.effects α) (folders : Dict (Dict ByteArray))
    (r : Result α) (folders' : Dict (Dict ByteArray)) : Prop :=
  ∀ disk, Filled way folders disk →
    a.Ends Disk.answer disk fun r' disk' => r' = r ∧ Filled way folders' disk'

theorem yields_ofResult (r : Result α) : Yields way (.ofResult r) folders r folders :=
  fun _ h => ⟨rfl, h⟩

theorem yields_pure (v : α) : Yields way (pure v) folders (.ok v) folders :=
  yields_ofResult (.ok v)

theorem yields_throw (e : Error) :
    Yields way (throw e : Attempt Disk.effects α) folders (.error e) folders :=
  yields_ofResult (.error e)

theorem yields_attempt {r : Disk.Request} {reply : Except Disk.Fault r.Yield}
    (h : Answers way r folders reply folders') :
    Yields way (attempt r) folders (.ok reply) folders' :=
  fun disk hdisk => ⟨congrArg Except.ok (h disk hdisk).1, (h disk hdisk).2⟩

theorem yields_ask {r : Disk.Request} {v : r.Yield} (h : Answers way r folders (.ok v) folders') :
    Yields way (ask r) folders (.ok v) folders' :=
  fun disk hdisk => ⟨congrArg (Except.mapError Error.disk) (h disk hdisk).1, (h disk hdisk).2⟩

theorem yields_ask_error {r : Disk.Request} {fault : Disk.Fault}
    (h : Answers way r folders (.error fault) folders') :
    Yields way (ask r) folders (.error (.disk fault)) folders' :=
  fun disk hdisk => ⟨congrArg (Except.mapError Error.disk) (h disk hdisk).1, (h disk hdisk).2⟩

section

variable {a : Attempt Disk.effects α} {f : α → Attempt Disk.effects β} {v : α} {e : Error}
  {r : Result β} {r' : Result α}

theorem Yields.bind (ha : Yields way a folders (.ok v) folders')
    (hf : Yields way (f v) folders' r folders'') : Yields way (a >>= f) folders r folders'' := by
  refine fun disk hdisk => Attempt.ends_bind.2 ((ha disk hdisk).imp ?_)
  rintro - disk' ⟨rfl, hdisk'⟩
  exact hf disk' hdisk'

theorem Yields.bind_error (ha : Yields way a folders (.error e) folders') :
    Yields way (a >>= f) folders (.error e) folders' := by
  refine fun disk hdisk => Attempt.ends_bind.2 ((ha disk hdisk).imp ?_)
  rintro - disk' ⟨rfl, hdisk'⟩
  exact ⟨rfl, hdisk'⟩

theorem Yields.outcome (ha : Yields way a folders r' folders') :
    Yields way a.outcome folders (.ok r') folders' := by
  refine fun disk hdisk => Attempt.ends_outcome.2 ((ha disk hdisk).imp ?_)
  rintro - disk' ⟨rfl, hdisk'⟩
  exact ⟨rfl, hdisk'⟩

end

/-! ## Files of a target -/

/-- The names of the files that are made in the folder of a target in one call. -/
def callFiles (caller : Caller) : List String :=
  [Target.lockFile, Target.stateFile, backupFile, stagingFile, markerFile] ++
    (List.range 4).flatMap fun k => [recordFile (caller.lock k), claimFile (caller.lock k)]

theorem recordFile_mem_callFiles (caller : Caller) {k : Nat} (hk : k < 4) :
    recordFile (caller.lock k) ∈ callFiles caller :=
  List.mem_append_right _ (List.mem_flatMap.2 ⟨k, List.mem_range.2 hk, List.mem_cons_self⟩)

theorem claimFile_mem_callFiles (caller : Caller) {k : Nat} (hk : k < 4) :
    claimFile (caller.lock k) ∈ callFiles caller :=
  List.mem_append_right _
    (List.mem_flatMap.2 ⟨k, List.mem_range.2 hk, List.mem_cons_of_mem _ List.mem_cons_self⟩)

theorem plain_of_mem_callFiles (h : name ∈ callFiles caller) : Disk.Plain name := by
  rcases List.mem_append.1 h with h | h
  · simp only [List.mem_cons, List.not_mem_nil, or_false] at h
    rcases h with rfl | rfl | rfl | rfl | rfl
    · exact plain_lockFile
    · exact plain_stateFile
    · exact plain_backupFile
    · exact plain_stagingFile
    · exact plain_markerFile
  · obtain ⟨k, -, h⟩ := List.mem_flatMap.1 h
    simp only [List.mem_cons, List.not_mem_nil, or_false] at h
    rcases h with rfl | rfl
    · exact plain_recordFile _
    · exact plain_claimFile _

/-- The disk admits the folder of a target and the files of a call there. -/
structure Admits (root : Folder) (caller : Caller) (target : String) : Prop where
  folder : Admitted root.way target
  files : ∀ n ∈ callFiles caller, Admitted (root.way ++ [target]) n

theorem plain_of_isValid (h : Target.isValid target = true) : Disk.Plain target := by
  simp only [Target.isValid, decide_eq_true_eq] at h
  exact ⟨h.2.2.1, not_or.2 ⟨h.1, h.2.1⟩⟩

section

variable (h : root.Admits caller target) (hvalid : Target.isValid target = true)
include h hvalid

theorem Admits.usable (hname : name ∈ callFiles caller) : Usable root.way target name :=
  ⟨plain_of_isValid hvalid, plain_of_mem_callFiles hname, h.folder, h.files name hname⟩

theorem Admits.lockFile : Usable root.way target Target.lockFile :=
  h.usable hvalid (by simp [callFiles])

theorem Admits.stateFile : Usable root.way target Target.stateFile :=
  h.usable hvalid (by simp [callFiles])

theorem Admits.backupFile : Usable root.way target backupFile :=
  h.usable hvalid (by simp [callFiles])

theorem Admits.stagingFile : Usable root.way target stagingFile :=
  h.usable hvalid (by simp [callFiles])

theorem Admits.markerFile : Usable root.way target markerFile :=
  h.usable hvalid (by simp [callFiles])

theorem Admits.recordFile {k : Nat} (hk : k < 4) :
    Usable root.way target (recordFile (caller.lock k)) :=
  h.usable hvalid (recordFile_mem_callFiles caller hk)

theorem Admits.claimFile {k : Nat} (hk : k < 4) :
    Usable root.way target (claimFile (caller.lock k)) :=
  h.usable hvalid (claimFile_mem_callFiles caller hk)

end

/-- There are no private files. -/
def Settled (files : Dict ByteArray) : Prop :=
  ∀ n, n ≠ Target.lockFile → n ≠ Target.stateFile → n ≠ backupFile → files.get? n = none

theorem privateFile_ne_backupFile (token suffix : String) :
    privateFile token suffix ≠ backupFile := by
  intro h
  have hhead := congrArg (fun s : String => s.toList.head?) h
  rw [toList_privateFile] at hhead
  cases hhead

theorem Settled.privateFile (h : Settled files) (token suffix : String) :
    files.get? (privateFile token suffix) = none :=
  h _ (privateFile_ne_lockFile token suffix) (privateFile_ne_stateFile token suffix)
    (privateFile_ne_backupFile token suffix)

theorem Settled.markerFile (h : Settled files) : files.get? markerFile = none :=
  h _ (by decide) (by decide) (by decide)

theorem recordFile_ne_markerFile (lock : Lock) : recordFile lock ≠ markerFile :=
  ne_of_suffix (suffix_privateFile lock.token ".tmp") (by decide)

theorem claimFile_ne_markerFile (claim : Lock) : claimFile claim ≠ markerFile :=
  ne_of_suffix (suffix_privateFile claim.token ".taken") (by decide)

theorem locate_of_usable (h : Usable root.way target name) :
    (root.sub target).locate name = (root.sub target).file name :=
  locate_of_check _ h.admitsFile.check

/-! ## Single steps -/

theorem yields_discard (hname : Usable root.way target name) :
    Yields root.way ((root.sub target).discard name) (folders.insert target files) (.ok ())
      (folders.insert target (files.erase name)) := by
  cases hget : files.get? name with
  | some bytes =>
    exact (yields_attempt (Disk.answers_removeFile hname hget)).bind (yields_pure ())
  | none =>
    rw [Dict.erase_of_get? hget]
    exact (yields_attempt (Disk.answers_removeFile_missing hname hget)).bind (yields_pure ())

/-- The file of a target. -/
def fileOf? (folders : Dict (Dict ByteArray)) (target name : String) : Option ByteArray :=
  (folders.get? target).bind fun files => files.get? name

theorem fileOf?_insert (folders : Dict (Dict ByteArray)) (target name : String)
    (files : Dict ByteArray) :
    fileOf? (folders.insert target files) target name = files.get? name := by
  rw [fileOf?, Dict.get?_insert, if_pos rfl]
  rfl

theorem yields_readLock_missing (hname : Usable root.way target name)
    (hget : fileOf? folders target name = none) :
    Yields root.way ((root.sub target).readLock name) folders (.ok none) folders :=
  (yields_attempt (Disk.answers_read_missing hname hget)).bind (yields_pure none)

theorem yields_readLock (hname : Usable root.way target name) (hget : files.get? name = some bytes)
    (hbytes : Lock.ofBytes? bytes = some lock) :
    Yields root.way ((root.sub target).readLock name) (folders.insert target files)
      (.ok (some lock)) (folders.insert target files) := by
  refine (yields_attempt (Disk.answers_read hname hget)).bind ?_
  simp only [hbytes]
  exact yields_pure (some lock)

theorem yields_readLock_unreadable (hname : Usable root.way target name)
    (hget : files.get? name = some bytes) (hbytes : Lock.ofBytes? bytes = none) :
    Yields root.way ((root.sub target).readLock name) (folders.insert target files)
      (.error (.lock (.unreadableFile ((root.sub target).path name) (Lock.fault bytes))))
      (folders.insert target files) := by
  refine (yields_attempt (Disk.answers_read hname hget)).bind ?_
  simp only [hbytes]
  exact yields_throw _

/-- A record is created where there is none. -/
theorem yields_create (hrecord : Usable root.way target (recordFile lock))
    (hname : Usable root.way target name) (hne : recordFile lock ≠ name)
    (hfree : files.get? (recordFile lock) = none) (hnone : files.get? name = none) :
    Yields root.way ((root.sub target).create name lock) (folders.insert target files) (.ok true)
      (folders.insert target (files.insert name lock.toBytes)) := by
  have hwritten : (files.insert (recordFile lock) lock.toBytes).get? (recordFile lock) =
      some lock.toBytes := by
    rw [Dict.get?_insert, if_pos rfl]
  have hnone' : (files.insert (recordFile lock) lock.toBytes).get? name = none := by
    rw [Dict.get?_insert, if_neg hne]
    exact hnone
  have hcleared : ((files.insert (recordFile lock) lock.toBytes).insert name lock.toBytes).erase
      (recordFile lock) = files.insert name lock.toBytes := by
    refine Dict.ext_get? fun n => ?_
    simp only [Dict.get?_erase, Dict.get?_insert]
    by_cases hn : recordFile lock = n
    · subst hn
      rw [if_pos rfl, if_neg hne.symm, hfree]
    · rw [if_neg hn, if_neg hn]
  rw [create, locate_of_usable hrecord]
  refine (yields_ask (Disk.answers_write hrecord lock.toBytes)).bind ?_
  refine (yields_attempt (Disk.answers_link hrecord hname hwritten hnone')).bind ?_
  refine (yields_discard hrecord).bind ?_
  rw [hcleared]
  exact yields_pure true

/-- No record is created where there is one. -/
theorem yields_create_taken (hrecord : Usable root.way target (recordFile lock))
    (hname : Usable root.way target name) (hne : recordFile lock ≠ name)
    (hfree : files.get? (recordFile lock) = none) (htaken : files.get? name ≠ none) :
    Yields root.way ((root.sub target).create name lock) (folders.insert target files) (.ok false)
      (folders.insert target files) := by
  have hwritten : (files.insert (recordFile lock) lock.toBytes).get? (recordFile lock) =
      some lock.toBytes := by
    rw [Dict.get?_insert, if_pos rfl]
  have htaken' : (files.insert (recordFile lock) lock.toBytes).get? name ≠ none := by
    rw [Dict.get?_insert, if_neg hne]
    exact htaken
  rw [create, locate_of_usable hrecord]
  refine (yields_ask (Disk.answers_write hrecord lock.toBytes)).bind ?_
  refine (yields_attempt (Disk.answers_link_taken hrecord hname hwritten htaken')).bind ?_
  refine (yields_discard hrecord).bind ?_
  rw [Dict.erase_insert hfree]
  exact yields_pure false

/-! ## Removing records -/

section

variable {claim : Lock} {token : String} (hlock : Usable root.way target Target.lockFile)
  (hclaim : Usable root.way target (claimFile claim))
include hlock hclaim

theorem yields_take_missing (hget : fileOf? folders target Target.lockFile = none) :
    Yields root.way ((root.sub target).take claim token) folders (.ok .missing) folders := by
  rw [take, locate_of_usable hclaim]
  exact (yields_attempt (Disk.answers_rename_missing hlock hclaim hget)).bind (yields_pure Taken.missing)

variable (hfree : files.get? (claimFile claim) = none)
  (hget : files.get? Target.lockFile = some bytes)
include hfree hget

theorem yields_take_removed (hbytes : Lock.ofBytes? bytes = some lock)
    (htoken : lock.token = token) :
    Yields root.way ((root.sub target).take claim token) (folders.insert target files)
      (.ok .removed) (folders.insert target (files.erase Target.lockFile)) := by
  have hne : Target.lockFile ≠ claimFile claim := (privateFile_ne_lockFile _ _).symm
  have hclaimed : ((files.erase Target.lockFile).insert (claimFile claim) bytes).get?
      (claimFile claim) = some bytes := by
    rw [Dict.get?_insert, if_pos rfl]
  have hgone : (files.erase Target.lockFile).get? (claimFile claim) = none := by
    rw [Dict.get?_erase, if_neg hne]
    exact hfree
  rw [take, locate_of_usable hclaim]
  refine (yields_attempt (Disk.answers_rename hlock hclaim hne hget)).bind ?_
  refine (yields_readLock hclaim hclaimed hbytes).outcome.bind ?_
  show Yields _ (if _ then _ else _) _ _ _
  rw [if_pos (by rw [← htoken]; rfl)]
  refine (yields_discard hclaim).bind ?_
  rw [Dict.erase_insert hgone]
  exact yields_pure Taken.removed

/-- A record that has not been found to have the token is linked back. -/
theorem yields_take_back {found : Result (Option Lock)}
    (hfound : ∀ files : Dict ByteArray, files.get? (claimFile claim) = some bytes →
      Yields root.way ((root.sub target).readLock (claimFile claim)) (folders.insert target files)
        found (folders.insert target files))
    (hother : found.toOption.join.map Lock.token ≠ some token) :
    Yields root.way ((root.sub target).take claim token) (folders.insert target files)
      (found.map fun lock => lock.elim .missing .other) (folders.insert target files) := by
  have hne : Target.lockFile ≠ claimFile claim := (privateFile_ne_lockFile _ _).symm
  have hclaimed : ((files.erase Target.lockFile).insert (claimFile claim) bytes).get?
      (claimFile claim) = some bytes := by
    rw [Dict.get?_insert, if_pos rfl]
  have hnone : ((files.erase Target.lockFile).insert (claimFile claim) bytes).get?
      Target.lockFile = none := by
    rw [Dict.get?_insert, if_neg hne.symm, Dict.get?_erase, if_pos rfl]
  have hrestored : (((files.erase Target.lockFile).insert (claimFile claim) bytes).insert
      Target.lockFile bytes).erase (claimFile claim) = files := by
    refine Dict.ext_get? fun n => ?_
    simp only [Dict.get?_erase, Dict.get?_insert]
    by_cases hn : claimFile claim = n
    · subst hn
      rw [if_pos rfl, hfree]
    · rw [if_neg hn]
      by_cases hn' : Target.lockFile = n
      · subst hn'
        rw [if_pos rfl, hget]
      · rw [if_neg hn', if_neg hn, if_neg hn']
  rw [take, locate_of_usable hclaim]
  refine (yields_attempt (Disk.answers_rename hlock hclaim hne hget)).bind ?_
  refine (hfound _ hclaimed).outcome.bind ?_
  show Yields _ (if _ then _ else _) _ _ _
  rw [if_neg hother]
  refine (yields_attempt (Disk.answers_link hclaim hlock hclaimed hnone)).bind ?_
  refine (yields_discard hclaim).bind ?_
  rw [hrestored]
  cases found with
  | error e => exact (yields_ofResult (.error e)).bind_error
  | ok lock =>
    refine (yields_ofResult (.ok lock)).bind ?_
    cases lock <;> exact yields_pure _

theorem yields_take_other (hbytes : Lock.ofBytes? bytes = some lock) (htoken : lock.token ≠ token) :
    Yields root.way ((root.sub target).take claim token) (folders.insert target files)
      (.ok (.other lock)) (folders.insert target files) :=
  yields_take_back hlock hclaim hfree hget (fun _ hclaimed => yields_readLock hclaim hclaimed hbytes)
    fun he => htoken (Option.some.inj he)

theorem yields_take_unreadable (hbytes : Lock.ofBytes? bytes = none) :
    Yields root.way ((root.sub target).take claim token) (folders.insert target files)
      (.error (.lock (.unreadableFile ((root.sub target).path (claimFile claim)) (Lock.fault bytes))))
      (folders.insert target files) :=
  yields_take_back hlock hclaim hfree hget
    (fun _ hclaimed => yields_readLock_unreadable hclaim hclaimed hbytes) nofun

end

/-! ## Locks -/

/-- What a target holds but for its lock. -/
def unlocked (files : Dict ByteArray) : Dict ByteArray :=
  files.erase Target.lockFile

/-- A target with a lock. -/
def locked (files : Dict ByteArray) (lock : Lock) : Dict ByteArray :=
  files.insert Target.lockFile lock.toBytes

section

variable (hadmits : root.Admits caller target) (hvalid : Target.isValid target = true)
  (hsettled : Settled files)
include hadmits hvalid hsettled

theorem yields_create_lock {k : Nat} (hk : k < 4) (hnone : files.get? Target.lockFile = none) :
    Yields root.way ((root.sub target).create Target.lockFile (caller.lock k))
      (folders.insert target files) (.ok true)
      (folders.insert target (locked files (caller.lock k))) :=
  yields_create (hadmits.recordFile hvalid hk) (hadmits.lockFile hvalid)
    (privateFile_ne_lockFile _ _) (hsettled.privateFile _ _) hnone

theorem yields_create_lock_taken {k : Nat} (hk : k < 4)
    (hget : files.get? Target.lockFile = some bytes) :
    Yields root.way ((root.sub target).create Target.lockFile (caller.lock k))
      (folders.insert target files) (.ok false) (folders.insert target files) :=
  yields_create_taken (hadmits.recordFile hvalid hk) (hadmits.lockFile hvalid)
    (privateFile_ne_lockFile _ _) (hsettled.privateFile _ _) (by rw [hget]; exact nofun)

section

variable (hget : files.get? Target.lockFile = some bytes)
  (hbytes : Lock.ofBytes? bytes = some lock)
include hget hbytes

/-- A stale lock is removed while the marker stands, and then the marker. -/
theorem yields_breakStale :
    Yields root.way ((root.sub target).breakStale target caller lock) (folders.insert target files)
      (.ok ()) (folders.insert target (unlocked files)) := by
  have hlock := hadmits.lockFile hvalid
  have hmarker := hadmits.markerFile hvalid
  have hnone := hsettled.markerFile
  have hmarked (n : String) (hn : n ≠ markerFile) :
      (files.insert markerFile (caller.lock 1).toBytes).get? n = files.get? n := by
    rw [Dict.get?_insert, if_neg hn.symm]
  have hget' := (hmarked Target.lockFile (by decide)).trans hget
  have hfree := (hmarked _ (claimFile_ne_markerFile (caller.lock 2))).trans
    (hsettled.privateFile _ ".taken")
  have hbreak : Yields root.way ((root.sub target).breakMarked target caller lock)
      (folders.insert target (files.insert markerFile (caller.lock 1).toBytes)) (.ok ())
      (folders.insert target
        ((files.insert markerFile (caller.lock 1).toBytes).erase Target.lockFile)) := by
    refine (yields_readLock hlock hget' hbytes).bind ?_
    show Yields _ (if _ then _ else _) _ _ _
    rw [if_neg (not_not.2 rfl)]
    exact (yields_take_removed hlock (hadmits.claimFile hvalid (by decide)) hfree hget' hbytes
      rfl).bind (yields_pure ())
  have hcleared : ((files.insert markerFile (caller.lock 1).toBytes).erase Target.lockFile).erase
      markerFile = unlocked files := by
    refine Dict.ext_get? fun n => ?_
    simp only [unlocked, Dict.get?_erase, Dict.get?_insert]
    by_cases hn : markerFile = n
    · subst hn
      rw [if_pos rfl, if_neg (by decide), hnone]
    · rw [if_neg hn, if_neg hn]
  refine (yields_create (hadmits.recordFile hvalid (by decide)) hmarker
    (recordFile_ne_markerFile _) (hsettled.privateFile _ ".tmp") hnone).bind ?_
  refine hbreak.outcome.bind ((yields_discard hmarker).outcome.bind ?_)
  rw [hcleared]
  exact yields_ofResult (.ok ())

end

end

/-! ## Operations -/

theorem target_of_isValid (hvalid : Target.isValid target = true) :
    root.target target = .ok (root.sub target) := by
  rw [Folder.target, Target.check, if_pos hvalid]
  rfl

theorem yields_target_bind (hvalid : Target.isValid target = true)
    {f : Folder → Attempt Disk.effects α} {r : Result α}
    (h : Yields way (f (root.sub target)) folders r folders') :
    Yields way (Attempt.ofResult (root.target target) >>= f) folders r folders' := by
  rw [target_of_isValid hvalid]
  exact (yields_ofResult (.ok (root.sub target))).bind h

theorem settled_unlocked (h : Settled files) : Settled (unlocked files) := by
  intro n hlock hstate hbackup
  rw [unlocked, Dict.get?_erase, if_neg hlock.symm]
  exact h n hlock hstate hbackup

theorem locked_unlocked (files : Dict ByteArray) (lock : Lock) :
    locked (unlocked files) lock = locked files lock := by
  refine Dict.ext_get? fun n => ?_
  simp only [locked, unlocked, Dict.get?_insert, Dict.get?_erase]
  split <;> rfl

section

variable (hadmits : root.Admits caller target) (hvalid : Target.isValid target = true)
  (hsettled : Settled files)
include hadmits hvalid hsettled

theorem yields_tryAcquire {k : Nat} (hk : k < 4) (breaksAfter : Option Nat)
    (hnone : files.get? Target.lockFile = none) :
    Yields root.way ((root.sub target).tryAcquire target caller (caller.lock k) breaksAfter)
      (folders.insert target files) (.ok (some (caller.lock k)))
      (folders.insert target (locked files (caller.lock k))) :=
  (yields_create_lock hadmits hvalid hsettled hk hnone).bind (yields_pure (some (caller.lock k)))

/-- Once the folder of the target is made, a lock is acquired where there is none. -/
theorem yields_acquire_free {staleAfter : Nat}
    (hmake : Yields root.way (ask (.makeFolder (root.sub target).way)) folders (.ok ())
      (folders.insert target files)) (hnone : files.get? Target.lockFile = none) :
    Yields root.way (root.acquire caller staleAfter target) folders (.ok (caller.lock 0))
      (folders.insert target (locked files (caller.lock 0))) := by
  refine yields_target_bind hvalid (hmake.bind ?_)
  exact (yields_tryAcquire hadmits hvalid hsettled (by decide) (some staleAfter) hnone).bind
    (yields_pure (caller.lock 0))

variable {staleAfter : Nat}
  (hmake : Yields root.way (ask (.makeFolder (root.sub target).way)) folders (.ok ())
    (folders.insert target files))
  (hget : files.get? Target.lockFile = some bytes)
include hmake hget

/-- A record that cannot be read is in the way. -/
theorem yields_acquire_unreadable (hbytes : Lock.ofBytes? bytes = none) :
    Yields root.way (root.acquire caller staleAfter target) folders
      (.error (.lock
        (.unreadableFile ((root.sub target).path Target.lockFile) (Lock.fault bytes))))
      (folders.insert target files) := by
  refine yields_target_bind hvalid (hmake.bind (Yields.bind_error ?_))
  refine (yields_create_lock_taken hadmits hvalid hsettled (by decide) hget).bind ?_
  exact (yields_readLock_unreadable (hadmits.lockFile hvalid) hget hbytes).bind_error

variable (hbytes : Lock.ofBytes? bytes = some lock)
include hbytes

/-- A stale lock is broken, and then a lock is acquired. -/
theorem yields_acquire_stale (hstale : lock.isStale caller.now staleAfter = true) :
    Yields root.way (root.acquire caller staleAfter target) folders (.ok (caller.lock 3))
      (folders.insert target (locked files (caller.lock 3))) := by
  have hfirst : Yields root.way
      ((root.sub target).tryAcquire target caller (caller.lock 0) (some staleAfter))
      (folders.insert target files) (.ok none) (folders.insert target (unlocked files)) := by
    refine (yields_create_lock_taken hadmits hvalid hsettled (by decide) hget).bind ?_
    refine (yields_readLock (hadmits.lockFile hvalid) hget hbytes).bind ?_
    show Yields _ (if _ then _ else _) _ _ _
    rw [Option.any_some, if_pos hstale]
    exact (yields_breakStale hadmits hvalid hsettled hget hbytes).bind (yields_pure none)
  have hnone : (unlocked files).get? Target.lockFile = none := by
    rw [unlocked, Dict.get?_erase, if_pos rfl]
  refine yields_target_bind hvalid (hmake.bind (hfirst.bind ?_))
  rw [← locked_unlocked]
  exact (yields_tryAcquire hadmits hvalid (settled_unlocked hsettled) (by decide) none hnone).bind
    (yields_pure (caller.lock 3))

/-- A lock that is not stale stays. -/
theorem yields_acquire_held (hstale : ¬lock.isStale caller.now staleAfter = true) :
    Yields root.way (root.acquire caller staleAfter target) folders (.error (heldBy target lock))
      (folders.insert target files) := by
  refine yields_target_bind hvalid (hmake.bind (Yields.bind_error ?_))
  refine (yields_create_lock_taken hadmits hvalid hsettled (by decide) hget).bind ?_
  refine (yields_readLock (hadmits.lockFile hvalid) hget hbytes).bind ?_
  show Yields _ (if _ then _ else _) _ _ _
  rw [Option.any_some, if_neg hstale]
  exact yields_throw _

end

/-! ## Giving up -/

section

variable (hvalid : Target.isValid target = true)
  (hlock : Usable root.way target Target.lockFile)
  (hclaim : Usable root.way target (claimFile (caller.lock 0)))
include hvalid hlock hclaim

theorem yields_release_missing (hget : fileOf? folders target Target.lockFile = none) :
    Yields root.way (root.release caller target lock) folders (.error (lost target none)) folders :=
  yields_target_bind hvalid <| (yields_take_missing hlock hclaim hget).bind (yields_throw _)

variable {current : Lock} (hsettled : Settled files)
  (hget : files.get? Target.lockFile = some bytes)
include hsettled hget

theorem yields_release_unreadable (hbytes : Lock.ofBytes? bytes = none) :
    Yields root.way (root.release caller target lock) (folders.insert target files)
      (.error (.lock (.unreadableFile ((root.sub target).path (claimFile (caller.lock 0)))
        (Lock.fault bytes)))) (folders.insert target files) :=
  yields_target_bind hvalid (yields_take_unreadable hlock hclaim
    (hsettled.privateFile _ ".taken") hget hbytes).bind_error

variable (hbytes : Lock.ofBytes? bytes = some current)
include hbytes

theorem yields_release_other (htoken : current.token ≠ lock.token) :
    Yields root.way (root.release caller target lock) (folders.insert target files)
      (.error (lost target (some current))) (folders.insert target files) :=
  yields_target_bind hvalid <| (yields_take_other hlock hclaim (hsettled.privateFile _ ".taken")
    hget hbytes htoken).bind (yields_throw _)

/-- The lock is removed, and then the folder if nothing is left in it. -/
theorem yields_release (hstate : Usable root.way target Target.stateFile)
    (htoken : current.token = lock.token) :
    Yields root.way (root.release caller target lock) (folders.insert target files) (.ok ())
      (if unlocked files = {} then folders.erase target
        else folders.insert target (unlocked files)) := by
  have htake : Yields root.way ((root.sub target).take (caller.lock 0) lock.token)
      (folders.insert target files) (.ok .removed) (folders.insert target (unlocked files)) :=
    yields_take_removed hlock hclaim (hsettled.privateFile _ ".taken") hget hbytes htoken
  refine yields_target_bind hvalid (htake.bind ?_)
  refine (yields_ask (Disk.answers_probe hstate)).bind ?_
  by_cases hempty : unlocked files = {}
  · rw [if_pos hempty, hempty]
    exact (yields_attempt (Disk.answers_removeFolder hlock.folder hlock.admitsFolder)).bind
      (yields_pure ())
  · rw [if_neg hempty]
    cases (unlocked files).contains Target.stateFile with
    | true => exact yields_pure ()
    | false =>
      exact (yields_attempt (Disk.answers_removeFolder_notEmpty hlock.folder hlock.admitsFolder
        hempty)).bind (yields_pure ())

end

/-! ## Documents -/

/-- The files of a target when its document is another one; of the backup nothing is said. -/
def Rewritten (files files' : Dict ByteArray) (document : Option ByteArray) : Prop :=
  ∀ n, n ≠ backupFile → files'.get? n = if Target.stateFile = n then document else files.get? n

/-- The files of a target with another document; the one before is the backup. -/
def replacing (files : Dict ByteArray) (document : ByteArray) : Dict ByteArray :=
  match files.get? Target.stateFile with
  | some old => (files.insert backupFile old).insert Target.stateFile document
  | none => files.insert Target.stateFile document

/-- The files of a target without its document. -/
def dropped (files : Dict ByteArray) : Dict ByteArray :=
  (files.erase Target.stateFile).erase backupFile

theorem get?_replacing (files : Dict ByteArray) (document : ByteArray) (n : String) :
    (replacing files document).get? n = if Target.stateFile = n then some document
      else if backupFile = n then (files.get? Target.stateFile).or (files.get? n)
      else files.get? n := by
  rw [replacing]
  cases hget : files.get? Target.stateFile with
  | none =>
    rw [Dict.get?_insert, Option.none_or]
    split
    · rfl
    · split <;> rfl
  | some old =>
    rw [Dict.get?_insert, Dict.get?_insert]
    rfl

theorem get?_dropped (files : Dict ByteArray) (n : String) :
    (dropped files).get? n =
      if Target.stateFile = n ∨ backupFile = n then none else files.get? n := by
  rw [dropped, Dict.get?_erase, Dict.get?_erase]
  by_cases hbackup : backupFile = n
  · rw [if_pos hbackup, if_pos (.inr hbackup)]
  · rw [if_neg hbackup]
    exact if_congr (or_iff_left hbackup).symm rfl rfl

theorem rewritten_replacing (files : Dict ByteArray) (document : ByteArray) :
    Rewritten files (replacing files document) (some document) := by
  intro n hn
  rw [get?_replacing, if_neg hn.symm]

theorem rewritten_dropped (files : Dict ByteArray) : Rewritten files (dropped files) none := by
  intro n hn
  rw [get?_dropped]
  exact if_congr (or_iff_left hn.symm) rfl rfl

section

variable (hlock : Usable root.way target Target.lockFile)
include hlock

theorem yields_guard_missing (hget : fileOf? folders target Target.lockFile = none) :
    Yields root.way ((root.sub target).guard target lock) folders (verify target lock none)
      folders :=
  (yields_readLock_missing hlock hget).bind (yields_ofResult _)

theorem yields_guard {current : Lock} (hget : files.get? Target.lockFile = some bytes)
    (hbytes : Lock.ofBytes? bytes = some current) :
    Yields root.way ((root.sub target).guard target lock) (folders.insert target files)
      (verify target lock (some current)) (folders.insert target files) :=
  (yields_readLock hlock hget hbytes).bind (yields_ofResult _)

end

section

variable (hvalid : Target.isValid target = true)
  (hstate : Usable root.way target Target.stateFile)
  (hbackup : Usable root.way target backupFile)
  (hguard : Yields root.way ((root.sub target).guard target lock)
    (folders.insert target files) (.ok ()) (folders.insert target files))
include hvalid hstate hbackup hguard

/-- The document is staged and moved to its place, after a copy of the one that is there. -/
theorem yields_persist (hstaging : Usable root.way target stagingFile) (hsettled : Settled files)
    (bytes : ByteArray) :
    Yields root.way (root.persist target bytes lock) (folders.insert target files) (.ok ())
      (folders.insert target (replacing files bytes)) := by
  have hnone : files.get? stagingFile = none := hsettled _ (by decide) (by decide) (by decide)
  have hmove {files' : Dict ByteArray} (hget : files'.get? stagingFile = some bytes) :
      Yields root.way (ask (.rename ((root.sub target).file stagingFile)
          ((root.sub target).file Target.stateFile))) (folders.insert target files') (.ok ())
        (folders.insert target ((files'.erase stagingFile).insert Target.stateFile bytes)) :=
    yields_ask (Disk.answers_rename hstaging hstate (by decide) hget)
  have hstaged : (files.insert stagingFile bytes).get? stagingFile = some bytes := by
    rw [Dict.get?_insert, if_pos rfl]
  have hcurrent : (files.insert stagingFile bytes).get? Target.stateFile =
      files.get? Target.stateFile := by
    rw [Dict.get?_insert, if_neg (by decide)]
  have hwrite : Yields root.way (ask (.write ((root.sub target).file stagingFile) bytes))
      (folders.insert target files) (.ok ())
      (folders.insert target (files.insert stagingFile bytes)) :=
    yields_ask (Disk.answers_write hstaging bytes)
  have hprobe : Yields root.way (ask (.probe ((root.sub target).file Target.stateFile)))
      (folders.insert target (files.insert stagingFile bytes))
      (.ok (files.get? Target.stateFile).isSome)
      (folders.insert target (files.insert stagingFile bytes)) := by
    rw [← hcurrent]
    exact yields_ask (Disk.answers_probe hstate)
  rw [replacing]
  cases hfound : files.get? Target.stateFile with
  | none =>
    rw [hfound] at hprobe
    have hmoved : ((files.insert stagingFile bytes).erase stagingFile).insert Target.stateFile
        bytes = files.insert Target.stateFile bytes := by
      rw [Dict.erase_insert hnone]
    exact yields_target_bind hvalid
      (hguard.bind (hwrite.bind (hprobe.bind (hmoved ▸ hmove hstaged))))
  | some old =>
    rw [hfound] at hprobe
    rw [hfound] at hcurrent
    have hstaged' : ((files.insert stagingFile bytes).insert backupFile old).get? stagingFile =
        some bytes := by
      rw [Dict.get?_insert, if_neg (by decide), hstaged]
    have hmoved : ((files.insert stagingFile bytes).insert backupFile old).erase stagingFile =
        files.insert backupFile old := by
      refine Dict.ext_get? fun n => ?_
      simp only [Dict.get?_erase, Dict.get?_insert]
      by_cases hn : stagingFile = n
      · subst hn
        rw [if_pos rfl, if_neg (by decide), hnone]
      · rw [if_neg hn, if_neg hn]
    have hmove' := hmove hstaged'
    rw [hmoved] at hmove'
    exact yields_target_bind hvalid (hguard.bind (hwrite.bind (hprobe.bind
      ((yields_ask (Disk.answers_copy hstate hbackup hcurrent)).bind hmove'))))

/-- The document is removed, and its backup. -/
theorem yields_delete :
    Yields root.way (root.delete target lock) (folders.insert target files) (.ok ())
      (folders.insert target (dropped files)) :=
  yields_target_bind hvalid
    (hguard.bind ((yields_discard hstate).bind (yields_discard hbackup)))

end

/-- The folders that hold a document. -/
theorem yields_targets (names : List String)
    (hnames : ∀ name ∈ names, ∃ files, folders.get? name = some files ∧
      Usable root.way name Target.stateFile) :
    Yields root.way (root.targets (names.map fun name => (name, true))) folders
      (.ok (names.filter fun name => (fileOf? folders name Target.stateFile).isSome)) folders := by
  induction names with
  | nil => exact yields_pure []
  | cons name names ih =>
    obtain ⟨files, hfiles, husable⟩ := hnames name List.mem_cons_self
    have hcontains : files.contains Target.stateFile =
        (fileOf? folders name Target.stateFile).isSome := by
      rw [fileOf?, hfiles]
      rfl
    have hprobe : Yields root.way (ask (.probe ((root.sub name).file Target.stateFile))) folders
        (.ok (fileOf? folders name Target.stateFile).isSome) folders := by
      rw [← hcontains, ← Dict.insert_of_get? hfiles]
      exact yields_ask (Disk.answers_probe husable)
    refine hprobe.bind ((ih fun other hother =>
      hnames other (List.mem_cons_of_mem _ hother)).bind ?_)
    rw [List.filter_cons]
    exact yields_pure _

end ClusterLedger.Backend.Folder
