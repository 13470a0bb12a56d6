import ClusterLedger.Proofs.Backend.Place
import ClusterLedger.Proofs.Disk.Confined

/-!
# Calls without the lock

Whoever does not have the lock on record is refused, and whoever finds it taken does not get it.
Either way everything is left as it was: on a disk the record is moved away and back, and the private
files are gone again.
-/
namespace ClusterLedger.Backend

/-- A request that has to be refused while this is the record of the lock. -/
def Request.IsRefused (now : Instant) (staleAfter : Nat) (record : Option ByteArray) :
    Request → Prop
  | acquire _ => ∃ bytes, record = some bytes ∧
    ∀ lock, Lock.ofBytes? bytes = some lock → ¬lock.isStale now staleAfter
  | release _ lock => lock.acquiredAt.Shows ∧ Lock.tokenIn? record ≠ some lock.token
  | persist _ _ lock | delete _ lock => Lock.tokenIn? record ≠ some lock.token
  | load _ | list => False

variable {α β σ : Type} {same : σ → σ → Prop} {tells : Prop} {s s' : σ} {r : Result α}

/-- A call fails, with an error of the lock if that can be told, and everything is the same. -/
def Refused (same : σ → σ → Prop) (tells : Prop) (s : σ) (r : Result α) (s' : σ) : Prop :=
  same s s' ∧ ∃ e, r = .error e ∧ (tells → ∃ fault, e = .lock fault)

theorem refused_lock (h : same s s') (fault : LockFault) :
    Refused (α := α) same tells s (.error (.lock fault)) s' :=
  ⟨h, .lock fault, rfl, fun _ => ⟨fault, rfl⟩⟩

theorem refused_of_not {e : Error} (h : same s s') (htells : ¬tells) :
    Refused (α := α) same tells s (.error e) s' :=
  ⟨h, e, rfl, fun ht => absurd ht htells⟩

theorem Refused.mono {tells' : Prop} (h : Refused same tells s r s') (htells : tells' → tells) :
    Refused same tells' s r s' := by
  obtain ⟨hsame, e, he, hlock⟩ := h
  exact ⟨hsame, e, he, fun ht => hlock (htells ht)⟩

/-- What comes after a refusal is not done. -/
theorem Refused.bind {E : Effects} {answer : (r : E.Request) → σ → E.Reply r × σ} {a : Attempt E α}
    {f : α → Attempt E β} (h : a.Ends answer s (Refused same tells s)) :
    (a >>= f).Ends answer s (Refused same tells s) := by
  refine Attempt.ends_bind.2 (h.imp ?_)
  rintro r s' ⟨hsame, e, rfl, hlock⟩
  exact ⟨hsame, e, rfl, hlock⟩

theorem lost_eq (target : String) (current : Option Lock) :
    ∃ fault, lost target current = .lock fault := by
  cases current with
  | none => exact ⟨_, rfl⟩
  | some lock => exact ⟨_, rfl⟩

/-- A lock that is not on record is refused. -/
theorem verify_refused {target : String} {lock : Lock} {current : Option Lock}
    (h : current.map Lock.token ≠ some lock.token) :
    ∃ fault, verify target lock current = .error (.lock fault) := by
  obtain ⟨fault, hlost⟩ := lost_eq target current
  exact ⟨fault, by rw [verify, if_neg h, hlost]⟩

/-! ## In a folder -/

namespace Folder

open Disk (Entry Works SameShapes Admitted)
open Disk.Entry (LeadsTo)

variable {root d : Folder} {caller : Caller} {staleAfter : Nat} {disk : Entry}
  {target name token : String} {lock claim : Lock} {bytes : ByteArray}
  {es : List (String × Entry)}

/-- The record of a lock is read, or it is found missing. -/
def Readable (d : Folder) (disk : Entry) : Prop :=
  ∀ fault, Disk.read disk (d.file Target.lockFile) = .error fault → fault = .missing

/-- What is known of a record when its file is read. -/
def recordOf (path : String) : Except Disk.Fault ByteArray → Result (Option Lock)
  | .ok bytes => match Lock.ofBytes? bytes with
    | some lock => .ok (some lock)
    | none => .error (.lock (.unreadableFile path (Lock.fault bytes)))
  | .error .missing => .ok none
  | .error fault => .error (.disk fault)

theorem readLock_run (d : Folder) (name : String) (disk : Entry) :
    (d.readLock name).run Disk.answer disk =
      (recordOf (d.path name) (Disk.read disk (d.file name)), disk) := by
  have hends : (d.readLock name).Ends Disk.answer disk fun r disk' =>
      disk' = disk ∧ r = recordOf (d.path name) (Disk.read disk (d.file name)) := by
    refine ends_attempt_bind fun reply next hread => ?_
    obtain rfl : disk = next := congrArg Prod.snd hread
    obtain rfl : Disk.read disk (d.file name) = reply := congrArg Prod.fst hread
    cases Disk.read disk (d.file name) with
    | ok bytes =>
      simp only [recordOf]
      cases Lock.ofBytes? bytes <;> exact ⟨rfl, rfl⟩
    | error fault => cases fault <;> exact ⟨rfl, rfl⟩
  exact Prod.ext hends.2 hends.1

/-- A record that is read but does not have the token is one of somebody else, or none at all. -/
theorem recordOf_ok (path : String) (h : Lock.tokenIn? (some bytes) ≠ some token) :
    (∃ fault, recordOf path (.ok bytes) = .error (.lock fault)) ∨
      ∃ lock, recordOf path (.ok bytes) = .ok (some lock) ∧ lock.token ≠ token := by
  rw [Lock.tokenIn?, Option.bind_some] at h
  rw [recordOf]
  cases hlock : Lock.ofBytes? bytes with
  | none => exact .inl ⟨_, rfl⟩
  | some lock =>
    rw [hlock] at h
    exact .inr ⟨lock, rfl, fun he => h (congrArg some he)⟩

/-! ### Documents -/

theorem guard_run (d : Folder) (target : String) (lock : Lock) (disk : Entry) :
    (d.guard target lock).run Disk.answer disk =
      ((recordOf (d.path Target.lockFile) (Disk.read disk (d.file Target.lockFile))).bind
        (verify target lock), disk) := by
  have hread := readLock_run d Target.lockFile disk
  rw [guard]
  cases hrecord : recordOf (d.path Target.lockFile) (Disk.read disk (d.file Target.lockFile)) with
  | error e =>
    rw [hrecord] at hread
    exact Attempt.run_bind_error _ hread
  | ok current =>
    rw [hrecord] at hread
    exact Attempt.run_bind_ok _ hread

theorem guard_refused (target : String)
    (h : Lock.tokenIn? (Disk.read disk (d.file Target.lockFile)).toOption ≠ some lock.token) :
    (d.guard target lock).Ends Disk.answer disk
      (Refused SameShapes (d.Readable disk) disk) := by
  have hsame := SameShapes.refl disk
  unfold Attempt.Ends
  rw [guard_run]
  cases hread : Disk.read disk (d.file Target.lockFile) with
  | ok bytes =>
    rw [hread] at h
    rcases recordOf_ok (d.path Target.lockFile) h with ⟨fault, he⟩ | ⟨current, he, htoken⟩
    · rw [he]
      exact refused_lock hsame fault
    · rw [he]
      obtain ⟨fault, hverify⟩ := @verify_refused target lock (some current)
        fun hsome => htoken (Option.some.inj hsome)
      show Refused _ _ _ (verify target lock (some current)) _
      rw [hverify]
      exact refused_lock hsame fault
  | error fault =>
    by_cases hmissing : fault = .missing
    · subst hmissing
      exact refused_lock hsame (.removed target)
    · have hnot : ¬d.Readable disk := fun hreadable => hmissing (hreadable fault hread)
      have herror : recordOf (d.path Target.lockFile) (.error fault) = .error (.disk fault) := by
        cases fault <;> first | rfl | exact absurd rfl hmissing
      rw [herror]
      exact refused_of_not hsame hnot

/-- A target whose name is too long for a folder is refused by the disk. -/
theorem persist_of_long {target : String} (hroot : LeadsTo disk root.way es)
    (hvalid : Target.isValid target = true) (hlong : Disk.nameLimit < target.utf8ByteSize)
    (hcheck : Entry.check (root.way ++ [target] ++ [Target.lockFile]) = .ok ()) :
    Disk.read disk ((root.sub target).file Target.lockFile) = .error .nameTooLong ∧
      (root.persist target bytes lock).run Disk.answer disk =
        (.error (.disk .nameTooLong), disk) := by
  have hlook := hroot.look?_of_long (plain_of_isValid hvalid) hlong hcheck
  have hread : Disk.read disk ((root.sub target).file Target.lockFile) = .error .nameTooLong := by
    rw [Disk.read]
    simp only [file, sub, hlook]
  refine ⟨hread, ?_⟩
  have hrecord := readLock_run (root.sub target) Target.lockFile disk
  rw [hread] at hrecord
  rw [persist, target_of_isValid hvalid]
  exact (Attempt.run_bind_ok _ rfl).trans
    (Attempt.run_bind_error _ (Attempt.run_bind_error _ hrecord))

/-! ### Giving up -/

/-- Nothing stands under a name, which leads to no other folder. -/
structure Unused (d : Folder) (disk : Entry) (name : String) : Prop where
  single : '/' ∉ name.toList
  free : ∀ e, disk.at? (d.file name).place ≠ .ok e

theorem get?_of_unused (h : d.Unused disk name) (hes : LeadsTo disk d.way es) :
    Entries.get? name es = none := by
  cases hget : Entries.get? name es with
  | none => rfl
  | some e =>
    have hat := Entry.at?_child hes.folder name
    rw [hget] at hat
    exact absurd hat (h.free e)

/-- A record that is not moved away is missing, or cannot be told. -/
theorem rename_or_works (claim : Lock)
    (hfile : disk.shape? (d.file Target.lockFile).place ≠ .ok none)
    (hunused : d.Unused disk (claimFile claim)) :
    (∃ fault, Disk.answer (.rename (d.file Target.lockFile) (d.file (claimFile claim))) disk =
        (.error fault, disk) ∧
        (d.Readable disk ∧ Admitted d.way (claimFile claim) → fault = .missing)) ∨
      ∃ es bytes, Works disk d.way [Target.lockFile, claimFile claim] es disk ∧
        Entries.get? Target.lockFile es = some (.file bytes) ∧
        Entries.get? (claimFile claim) es = none := by
  cases hlook : disk.look? (d.file Target.lockFile) with
  | error fault =>
    refine .inl ⟨fault, by rw [Disk.answer, Disk.rename, hlook]; rfl, fun h => h.1 fault ?_⟩
    rw [Disk.read, hlook]
  | ok x =>
    obtain ⟨hlock, es, hes, rfl⟩ := Entry.look?_eq_ok plain_lockFile hlook
    cases hlook' : disk.look? (d.file (claimFile claim)) with
    | error fault =>
      refine .inl ⟨fault, by rw [Disk.answer, Disk.rename, hlook, hlook']; rfl, fun h => ?_⟩
      have hadmitted := hes.look? (plain_claimFile claim) h.2.length
      rw [h.2.check] at hadmitted
      cases hlook'.symm.trans hadmitted
    | ok y =>
      obtain ⟨hclaim, -⟩ := Entry.look?_eq_ok (plain_claimFile claim) hlook'
      have hnone := get?_of_unused hunused hes
      cases hget : Entries.get? Target.lockFile es with
      | none =>
        rw [hget] at hlook
        exact .inl ⟨.missing, by rw [Disk.answer, Disk.rename, hlook, hlook']; rfl, fun _ => rfl⟩
      | some e =>
        cases e with
        | folder entries =>
          refine absurd ?_ hfile
          have hshape := Entry.shape?_child hes.folder Target.lockFile
          rw [hget] at hshape
          exact hshape
        | file bytes =>
          refine .inr ⟨es, bytes, Disk.works_start hes fun n hn => ?_, hget, hnone⟩
          rcases List.mem_cons.1 hn with rfl | hn
          · exact hlock
          · rw [List.mem_singleton.1 hn]
            exact hclaim

/-- No record has been removed. -/
def NotTaken (tells : Prop) (disk : Entry) (r : Result Taken) (disk' : Entry) : Prop :=
  SameShapes disk disk' ∧ (r = .ok .missing ∨ (∃ lock, r = .ok (.other lock)) ∨
    ∃ e, r = .error e ∧ (tells → ∃ fault, e = .lock fault))

theorem attempt_run {r : Disk.Request} {reply : Except Disk.Fault r.Yield} {next : Entry}
    (h : Disk.answer r disk = (reply, next)) :
    (attempt r).run Disk.answer disk = (.ok reply, next) := by
  change (Except.ok (Disk.answer r disk).1, (Disk.answer r disk).2) = (Except.ok reply, next)
  rw [h]
  rfl

theorem discard_run {start : Entry} {names : List String} (h : Works start d.way names es disk)
    (hn : name ∈ names) (hget : Entries.get? name es = some (.file bytes)) :
    (d.discard name).run Disk.answer disk = (.ok (), disk.take (d.file name)) := by
  have hends : (d.discard name).Ends Disk.answer disk fun r disk' =>
      disk' = disk.take (d.file name) ∧ r = .ok () :=
    Attempt.ends_bind_of_run (attempt_run (h.answer_removeFile hn hget)) ⟨rfl, rfl⟩
  exact Prod.ext hends.2 hends.1

theorem readLock_run_of_works {start : Entry} {names : List String}
    (h : Works start d.way names es disk) (hn : name ∈ names)
    (hget : Entries.get? name es = some (.file bytes)) :
    (d.readLock name).run Disk.answer disk = (recordOf (d.path name) (.ok bytes), disk) := by
  have hread : Disk.read disk (d.file name) = .ok bytes := congrArg Prod.fst (h.answer_read hn hget)
  rw [readLock_run, hread]

/-- The files of a folder while its record is under another name. -/
def movedAway (name : String) (bytes : ByteArray) (es : List (String × Entry)) :
    List (String × Entry) :=
  Entries.insert name (.file bytes) (Entries.erase Target.lockFile es)

theorem get?_movedAway_self : Entries.get? name (movedAway name bytes es) = some (.file bytes) := by
  rw [movedAway, Entries.get?_insert, if_pos rfl]

theorem get?_movedAway_lockFile (hne : name ≠ Target.lockFile) :
    Entries.get? Target.lockFile (movedAway name bytes es) = none := by
  rw [movedAway, Entries.get?_insert, if_neg hne, Entries.get?_erase, if_pos rfl]

/-- A record that is back in its place leaves the folder as it was. -/
theorem get?_movedBack (hget : Entries.get? Target.lockFile es = some (.file bytes))
    (hnone : Entries.get? name es = none) (m : String) :
    Entries.get? m (Entries.erase name (Entries.insert Target.lockFile (.file bytes)
      (movedAway name bytes es))) = Entries.get? m es := by
  simp only [movedAway, Entries.get?_erase, Entries.get?_insert]
  split
  · next hm => rw [← hm, hnone]
  · split
    · next hm => rw [← hm, hget]
    · rfl

/-- A record without the token is moved to the private name, inspected there, linked back and
discarded there. -/
theorem take_back (tells : Prop) (claim : Lock) (hsingle : '/' ∉ (claimFile claim).toList)
    (hworks : Works disk d.way [Target.lockFile, claimFile claim] es disk)
    (hget : Entries.get? Target.lockFile es = some (.file bytes))
    (hnone : Entries.get? (claimFile claim) es = none)
    (h : Lock.tokenIn? (some bytes) ≠ some token) :
    (d.take claim token).Ends Disk.answer disk (NotTaken tells disk) := by
  have hne : claimFile claim ≠ Target.lockFile := privateFile_ne_lockFile claim.token ".taken"
  have hlock : Target.lockFile ∈ [Target.lockFile, claimFile claim] := List.mem_cons_self
  have hclaim : claimFile claim ∈ [Target.lockFile, claimFile claim] := by simp
  have hgone : Entries.get? (claimFile claim) (Entries.erase Target.lockFile es) = none := by
    rw [Entries.get?_erase, if_neg hne.symm, hnone]
  have hmoved := (hworks.take (Disk.noFolder_of_file hget)).put (Disk.noFolder_of_none hgone) bytes
  have hfound := readLock_run_of_works hmoved hclaim get?_movedAway_self
  have hback := hmoved.put (Disk.noFolder_of_none (get?_movedAway_lockFile hne)) bytes
  have hgetBack : Entries.get? (claimFile claim) (Entries.insert Target.lockFile (.file bytes)
      (movedAway (claimFile claim) bytes es)) = some (.file bytes) := by
    rw [Entries.get?_insert, if_neg hne.symm, get?_movedAway_self]
  have hsame := (hback.take (Disk.noFolder_of_file hgetBack)).sameShapes hworks.leads
    (get?_movedBack hget hnone)
  -- The record is moved to the private name, and is another one.
  rw [take, d.locate_of_single hsingle]
  refine Attempt.ends_bind_of_run
    (attempt_run (hworks.answer_rename plain_lockFile hlock hclaim hne.symm hget hnone)) ?_
  refine Attempt.ends_bind_of_run (Attempt.run_outcome_of_run hfound) ?_
  have hother : ¬(recordOf (d.path (claimFile claim)) (.ok bytes)).toOption.join.map Lock.token =
      some token := by
    rcases recordOf_ok (d.path (claimFile claim)) h with ⟨fault, he⟩ | ⟨lock, he, htoken⟩
    · rw [he]
      intro hsome
      cases hsome
    · rw [he]
      exact fun hsome => htoken (Option.some.inj hsome)
  rw [if_neg hother]
  -- It is linked back to its place and discarded under the private name.
  refine Attempt.ends_bind_of_run (attempt_run
    (hmoved.answer_link hclaim hlock get?_movedAway_self (get?_movedAway_lockFile hne))) ?_
  refine Attempt.ends_bind_of_run (discard_run hback hclaim hgetBack) ?_
  rcases recordOf_ok (d.path (claimFile claim)) h with ⟨fault, he⟩ | ⟨lock, he, -⟩
  · rw [he]
    exact ⟨hsame, .inr (.inr ⟨_, rfl, fun _ => ⟨fault, rfl⟩⟩)⟩
  · rw [he]
    exact ⟨hsame, .inr (.inl ⟨lock, rfl⟩)⟩

/-- A record that does not have the token is not removed. -/
theorem take_refused (claim : Lock)
    (hfile : disk.shape? (d.file Target.lockFile).place ≠ .ok none)
    (hunused : d.Unused disk (claimFile claim))
    (h : Lock.tokenIn? (Disk.read disk (d.file Target.lockFile)).toOption ≠ some token) :
    (d.take claim token).Ends Disk.answer disk
      (NotTaken (d.Readable disk ∧ Admitted d.way (claimFile claim)) disk) := by
  rcases rename_or_works claim hfile hunused with
    ⟨fault, hrename, hmissing⟩ | ⟨es, bytes, hworks, hget, hnone⟩
  · rw [take, d.locate_of_single hunused.single]
    refine Attempt.ends_bind_of_run (attempt_run hrename) ?_
    have hsame := SameShapes.refl disk
    by_cases hfault : fault = .missing
    · subst hfault
      exact ⟨hsame, .inl rfl⟩
    · have herror : NotTaken (d.Readable disk ∧ Admitted d.way (claimFile claim)) disk
          (.error (.disk fault)) disk :=
        ⟨hsame, .inr (.inr ⟨_, rfl, fun htells => absurd (hmissing htells) hfault⟩)⟩
      cases fault <;> first | exact herror | exact absurd rfl hfault
  · have hread : Disk.read disk (d.file Target.lockFile) = .ok bytes :=
      congrArg Prod.fst (hworks.answer_read List.mem_cons_self hget)
    rw [hread] at h
    exact take_back _ claim hunused.single hworks hget hnone h

theorem release_refused (root : Folder) (caller : Caller) {target : String}
    (hvalid : Target.isValid target = true)
    (hfile : disk.shape? ((root.sub target).file Target.lockFile).place ≠ .ok none)
    (hunused : (root.sub target).Unused disk (claimFile (caller.lock 0)))
    (h : Lock.tokenIn? (Disk.read disk ((root.sub target).file Target.lockFile)).toOption ≠
      some lock.token) :
    (root.release caller target lock).Ends Disk.answer disk (Refused SameShapes
      ((root.sub target).Readable disk ∧
        Admitted (root.sub target).way (claimFile (caller.lock 0))) disk) := by
  rw [release, target_of_isValid hvalid]
  refine Attempt.ends_bind.2 (Attempt.ends_ofResult.2 ?_)
  refine Attempt.ends_bind.2 ((take_refused (caller.lock 0) hfile hunused h).imp ?_)
  rintro r disk' ⟨hsame, rfl | ⟨current, rfl⟩ | ⟨e, rfl, hlock⟩⟩
  · exact refused_lock hsame _
  · exact refused_lock hsame _
  · exact ⟨hsame, e, rfl, hlock⟩

/-! ### Taking -/

/-- Where there is a lock, a new record is written and discarded, and not linked. -/
theorem create_taken (hsingle : '/' ∉ (recordFile lock).toList)
    (hworks : Works disk d.way [Target.lockFile, recordFile lock] es disk)
    (hget : Entries.get? Target.lockFile es = some (.file bytes))
    (hnone : Entries.get? (recordFile lock) es = none) :
    (d.create Target.lockFile lock).Ends Disk.answer disk fun r disk' => r = .ok false ∧
      SameShapes disk disk' ∧ Disk.read disk' (d.file Target.lockFile) = .ok bytes := by
  have hne : recordFile lock ≠ Target.lockFile := privateFile_ne_lockFile lock.token ".tmp"
  have hlock : Target.lockFile ∈ [Target.lockFile, recordFile lock] := List.mem_cons_self
  have hrecord : recordFile lock ∈ [Target.lockFile, recordFile lock] := by simp
  have hwritten := hworks.put (Disk.noFolder_of_none hnone) lock.toBytes
  have hgetRecord : Entries.get? (recordFile lock) (Entries.insert (recordFile lock)
      (Entry.file lock.toBytes) es) = some (.file lock.toBytes) := by
    rw [Entries.get?_insert, if_pos rfl]
  have hgetLock : Entries.get? Target.lockFile (Entries.insert (recordFile lock)
      (Entry.file lock.toBytes) es) = some (.file bytes) := by
    rw [Entries.get?_insert, if_neg hne, hget]
  have hdone := hwritten.take (Disk.noFolder_of_file hgetRecord)
  have hget' (n : String) : Entries.get? n (Entries.erase (recordFile lock) (Entries.insert
      (recordFile lock) (Entry.file lock.toBytes) es)) = Entries.get? n es := by
    rw [Entries.get?_erase, Entries.get?_insert]
    split
    · next hn => rw [← hn, hnone]
    · rfl
  rw [create, d.locate_of_single hsingle]
  refine ends_ask_bind (fun _ next hwrite => ?_) (fun fault next hwrite => ?_)
  · cases (hworks.answer_write hrecord hnone lock.toBytes).symm.trans hwrite
    refine Attempt.ends_bind_of_run
      (attempt_run (hwritten.answer_link_taken hrecord hlock hgetRecord hgetLock)) ?_
    refine Attempt.ends_bind_of_run (discard_run hwritten hrecord hgetRecord) ⟨rfl, ?_, ?_⟩
    · exact hdone.sameShapes hworks.leads hget'
    · exact congrArg Prod.fst (hdone.answer_read hlock ((hget' _).trans hget))
  · cases (hworks.answer_write hrecord hnone lock.toBytes).symm.trans hwrite

/-- A lock that is not known to be stale is not taken. -/
theorem tryAcquire_refused (target : String)
    (hread : Disk.read disk (d.file Target.lockFile) = .ok bytes)
    (hstale : ∀ current, Lock.ofBytes? bytes = some current → ¬current.isStale caller.now staleAfter)
    (hunused : d.Unused disk (recordFile lock)) :
    (d.tryAcquire target caller lock (some staleAfter)).Ends Disk.answer disk
      (Refused SameShapes (d.Readable disk ∧ Admitted d.way (recordFile lock)) disk) := by
  obtain ⟨hreaches, es, hes, hget⟩ := Disk.entry_of_read plain_lockFile hread
  cases hlook : disk.look? (d.file (recordFile lock)) with
  | error fault =>
    have hwrite : Disk.answer (.write (d.file (recordFile lock)) lock.toBytes) disk =
        (.error fault, disk) := by
      rw [Disk.answer, Disk.write, hlook]
      rfl
    have hnot : ¬(d.Readable disk ∧ Admitted d.way (recordFile lock)) := by
      intro htells
      have hadmitted := hes.look? (plain_recordFile lock) htells.2.length
      rw [htells.2.check] at hadmitted
      cases hlook.symm.trans hadmitted
    rw [tryAcquire, create, d.locate_of_single hunused.single]
    refine Refused.bind (Refused.bind (ends_ask.2 ?_))
    rw [hwrite]
    exact refused_of_not (SameShapes.refl disk) hnot
  | ok x =>
    obtain ⟨hrecord, -⟩ := Entry.look?_eq_ok (plain_recordFile lock) hlook
    have hworks : Works disk d.way [Target.lockFile, recordFile lock] es disk := by
      refine Disk.works_start hes fun n hn => ?_
      rcases List.mem_cons.1 hn with rfl | hn
      · exact hreaches
      · rw [List.mem_singleton.1 hn]
        exact hrecord
    refine Attempt.ends_bind.2
      ((create_taken hunused.single hworks hget (get?_of_unused hunused hes)).imp ?_)
    rintro - disk' ⟨rfl, hsame, hread'⟩
    have hfound := readLock_run d Target.lockFile disk'
    rw [hread', recordOf] at hfound
    cases hlock : Lock.ofBytes? bytes with
    | none =>
      rw [hlock] at hfound
      refine Attempt.ends_bind.2 ?_
      unfold Attempt.Ends
      rw [hfound]
      exact refused_lock hsame _
    | some current =>
      rw [hlock] at hfound
      refine Attempt.ends_bind_of_run hfound ?_
      show Attempt.Ends _ (if current.isStale caller.now staleAfter = true then _ else _) _ _
      rw [if_neg (hstale current hlock)]
      exact refused_lock hsame _

theorem acquire_refused (root : Folder) (caller : Caller) (staleAfter : Nat) {target : String}
    (hvalid : Target.isValid target = true)
    (hread : Disk.read disk ((root.sub target).file Target.lockFile) = .ok bytes)
    (hstale : ∀ current, Lock.ofBytes? bytes = some current → ¬current.isStale caller.now staleAfter)
    (hunused : (root.sub target).Unused disk (recordFile (caller.lock 0))) :
    (root.acquire caller staleAfter target).Ends Disk.answer disk (Refused SameShapes
      ((root.sub target).Readable disk ∧
        Admitted (root.sub target).way (recordFile (caller.lock 0))) disk) := by
  obtain ⟨-, es, hes, -⟩ := Disk.entry_of_read plain_lockFile hread
  have hmake : Disk.answer (.makeFolder (root.sub target).way) disk = (.ok (), disk) :=
    Disk.grow_of_leadsTo hes
  rw [acquire, target_of_isValid hvalid]
  refine Attempt.ends_bind.2 (Attempt.ends_ofResult.2 ?_)
  refine ends_ask_bind (fun _ next hnext => ?_) (fun fault next hnext => ?_)
  · cases hmake.symm.trans hnext
    exact Refused.bind (tryAcquire_refused target hread hstale hunused)
  · cases hmake.symm.trans hnext

/-! ### All requests -/

/-- The private files that a request makes and removes when it is refused. -/
def privateFiles (caller : Caller) : Request → List String
  | .acquire _ => [recordFile (caller.lock 0)]
  | .release _ _ => [claimFile (caller.lock 0)]
  | .load _ | .persist _ _ _ | .delete _ _ | .list => []

/-- Whether a request is refused because of the lock can be told: the record is read or missing, and
the names of the private files are not too long. -/
structure Tells (root : Folder) (caller : Caller) (r : Request) (target : String)
    (disk : Entry) : Prop where
  readable : (root.sub target).Readable disk
  admitted : ∀ n ∈ privateFiles caller r, Admitted (root.sub target).way n

theorem perform_refused (root : Folder) (caller : Caller) (staleAfter : Nat) {target : String}
    {r : Request} (hr : r.About target) (hvalid : Target.isValid target = true)
    (hfile : disk.shape? ((root.sub target).file Target.lockFile).place ≠ .ok none)
    (hunused : ∀ n ∈ privateFiles caller r, (root.sub target).Unused disk n)
    (hrefused : r.IsRefused caller.now staleAfter
      (Disk.read disk ((root.sub target).file Target.lockFile)).toOption) :
    (root.perform caller staleAfter r).Ends Disk.answer disk
      (Refused SameShapes (root.Tells caller r target disk) disk) := by
  cases hr with
  | acquire =>
    obtain ⟨bytes, hbytes, hstale⟩ := hrefused
    obtain ⟨bytes, hread, rfl⟩ : ∃ b, Disk.read disk ((root.sub target).file Target.lockFile) =
        .ok b ∧ b = bytes := by
      cases hread : Disk.read disk ((root.sub target).file Target.lockFile) with
      | ok b =>
        rw [hread] at hbytes
        exact ⟨b, rfl, Option.some.inj hbytes⟩
      | error fault =>
        rw [hread] at hbytes
        cases hbytes
    refine (acquire_refused root caller staleAfter hvalid hread hstale
      (hunused _ (List.mem_singleton_self _))).imp fun _ _ h => h.mono fun htells => ?_
    exact ⟨htells.readable, htells.admitted _ (List.mem_singleton_self _)⟩
  | release lock =>
    refine (release_refused root caller hvalid hfile (hunused _ (List.mem_singleton_self _))
      hrefused.2).imp fun _ _ h => h.mono fun htells => ?_
    exact ⟨htells.readable, htells.admitted _ (List.mem_singleton_self _)⟩
  | load => exact hrefused.elim
  | persist bytes lock =>
    rw [perform, persist, target_of_isValid hvalid]
    refine Attempt.ends_bind.2 (Attempt.ends_ofResult.2 (Refused.bind ?_))
    exact (guard_refused target hrefused).imp fun _ _ h => h.mono Tells.readable
  | delete lock =>
    rw [perform, delete, target_of_isValid hvalid]
    refine Attempt.ends_bind.2 (Attempt.ends_ofResult.2 (Refused.bind ?_))
    exact (guard_refused target hrefused).imp fun _ _ h => h.mono Tells.readable

end Folder

/-! ## In a store -/

namespace Objects

open Store (Memory.answer)

variable {o : Objects} {caller : Caller} {staleAfter : Nat} {s : Store.Memory.Objects}
  {target : String} {lock : Lock}

/-- A record that cannot be read is an error of the lock. -/
theorem readLock_error (key : String) (s : Store.Memory.Objects) :
    (readLock key).Ends Memory.answer s fun r _ => ∀ e, r = .error e → ∃ fault, e = .lock fault := by
  have hanswer : Memory.answer (.get key) s = (.ok (s.get? key), s) := rfl
  refine ends_ask_bind hanswer ?_
  cases s.get? key with
  | none => exact nofun
  | some bytes =>
    simp only
    cases Lock.ofBytes? bytes with
    | none =>
      intro e he
      cases he
      exact ⟨_, rfl⟩
    | some lock => exact nofun

/-- Whatever comes after reading a record that does not have the token has to refuse. -/
theorem readLock_bind_refused {α : Type} {key : String}
    {f : Option (ByteArray × Lock) → Attempt Store.effects α}
    (h : Lock.tokenIn? (s.get? key) ≠ some lock.token)
    (hf : ∀ found, (found.map (·.2)).map Lock.token ≠ some lock.token →
      ∃ fault, (f found).run Memory.answer s = (.error (.lock fault), s)) :
    (readLock key >>= f).Ends Memory.answer s (Refused (fun s s' => s' = s) True s) := by
  refine Attempt.ends_bind.2 ?_
  obtain ⟨hstore, hfound⟩ := readLock_ends key s
  have herror := readLock_error key s
  unfold Attempt.Ends at herror ⊢
  cases hrun : (readLock key).run Memory.answer s with
  | mk r s' =>
    rw [hrun] at hstore hfound herror
    obtain rfl : s' = s := hstore
    cases r with
    | error e =>
      obtain ⟨fault, rfl⟩ := herror e rfl
      exact refused_lock rfl fault
    | ok found =>
      obtain ⟨fault, hend⟩ := hf found (hfound found rfl ▸ h)
      simp only [hend]
      exact refused_lock rfl fault

theorem guard_refused (hvalid : Target.isValid target = true)
    (h : Lock.tokenIn? (s.get? (o.keyOf target Target.lockFile)) ≠ some lock.token) :
    (o.guard target lock).Ends Memory.answer s (Refused (fun s s' => s' = s) True s) := by
  rw [guard, key_of_isValid hvalid]
  refine Attempt.ends_bind.2 (Attempt.ends_ofResult.2 (readLock_bind_refused h fun found hne => ?_))
  obtain ⟨fault, hverify⟩ := @verify_refused target lock _ hne
  exact ⟨fault, Prod.ext hverify rfl⟩

theorem release_refused (hvalid : Target.isValid target = true) (hshows : lock.acquiredAt.Shows)
    (h : Lock.tokenIn? (s.get? (o.keyOf target Target.lockFile)) ≠ some lock.token) :
    (o.release target lock).Ends Memory.answer s (Refused (fun s s' => s' = s) True s) := by
  -- The very bytes of the lock would have its token.
  have hbytes : s.get? (o.keyOf target Target.lockFile) ≠ some lock.toBytes := by
    intro hsame
    rw [hsame, Lock.tokenIn?, Option.bind_some, Lock.ofBytes?_toBytes_of_shows hshows] at h
    exact h rfl
  have hanswer : Memory.answer (.deleteIfMatches (o.keyOf target Target.lockFile) lock.toBytes) s =
      (.ok false, s) := if_neg hbytes
  rw [release, key_of_isValid hvalid]
  refine Attempt.ends_bind.2 (Attempt.ends_ofResult.2 (ends_ask_bind hanswer ?_))
  refine readLock_bind_refused h fun found _ => ?_
  obtain ⟨fault, hlost⟩ := lost_eq target (found.map (·.2))
  exact ⟨fault, Prod.ext (congrArg Except.error hlost) rfl⟩

theorem acquire_refused (hvalid : Target.isValid target = true) {bytes : ByteArray}
    (hget : s.get? (o.keyOf target Target.lockFile) = some bytes)
    (hstale : ∀ current, Lock.ofBytes? bytes = some current → ¬current.isStale caller.now staleAfter) :
    (o.acquire caller staleAfter target).Ends Memory.answer s
      (Refused (fun s s' => s' = s) True s) := by
  have hput : Memory.answer
      (.putIfAbsent (o.keyOf target Target.lockFile) (caller.lock 0).toBytes) s = (.ok false, s) :=
    if_pos (by rw [Dict.contains, hget]; rfl)
  have hread : Memory.answer (.get (o.keyOf target Target.lockFile)) s = (.ok (some bytes), s) := by
    rw [← hget]
    rfl
  rw [acquire, key_of_isValid hvalid]
  refine Attempt.ends_bind.2 (Attempt.ends_ofResult.2 (Attempt.ends_bind.2
    (ends_ask_bind hput ?_)))
  cases hlock : Lock.ofBytes? bytes with
  | none =>
    refine Attempt.ends_bind.2 (ends_ask_bind hread ?_)
    simp only [hlock]
    exact refused_lock rfl _
  | some current =>
    refine Attempt.ends_bind_of_run (readLock_run hget hlock) ?_
    show Attempt.Ends _ (if current.isStale caller.now staleAfter = true then _ else _) _ _
    rw [if_neg (hstale current hlock)]
    exact refused_lock rfl _

theorem perform_refused (o : Objects) (caller : Caller) (staleAfter : Nat) {r : Request}
    (hr : r.About target) (hvalid : Target.isValid target = true)
    (hrefused : r.IsRefused caller.now staleAfter (s.get? (o.keyOf target Target.lockFile))) :
    (o.perform caller staleAfter r).Ends Memory.answer s
      (Refused (fun s s' => s' = s) True s) := by
  cases hr with
  | acquire =>
    obtain ⟨bytes, hget, hstale⟩ := hrefused
    exact acquire_refused hvalid hget hstale
  | release lock => exact release_refused hvalid hrefused.1 hrefused.2
  | load => exact hrefused.elim
  | persist bytes lock => exact Refused.bind (guard_refused hvalid hrefused)
  | delete lock => exact Refused.bind (guard_refused hvalid hrefused)

end Objects

/-! ## In either place -/

namespace Place

/-- The record of the lock of a target as it is read. -/
def record? : (p : Place) → p.State → String → Option ByteArray
  | folder root, disk, target =>
    (Disk.read disk ((root.sub target).file Target.lockFile)).toOption
  | objects path, stored, target => stored.get? ((Objects.ofPath path).keyOf target Target.lockFile)

/-- No folder stands in the place of the lock, and nothing in those of the private files, which are in
the folder of the target. -/
def IsClear : (p : Place) → p.State → Caller → Request → String → Prop
  | folder root, disk, caller, r, target =>
    disk.shape? ((root.sub target).file Target.lockFile).place ≠ .ok none ∧
      ∀ n ∈ Folder.privateFiles caller r, (root.sub target).Unused disk n
  | objects _, _, _, _, _ => True

/-- Whether a request is refused because of the lock can be told. -/
def Tells : (p : Place) → p.State → Caller → Request → String → Prop
  | folder root, disk, caller, r, target => root.Tells caller r target disk
  | objects _, _, _, _, _ => True

/-- Everything in a place is as it was. -/
def SameContents : (p : Place) → p.State → p.State → Prop
  | folder _ => Disk.SameShapes
  | objects _ => fun s s' => s' = s

variable {p : Place} {s : p.State} {caller : Caller} {r : Request} {target : String}

/-- Who does not have the lock on record writes nothing and gives up no lock, and who finds it taken
does not get it: the call fails, with an error of the lock if that can be told, and leaves everything
as it was. -/
theorem refuses (staleAfter : Nat) (hr : r.About target) (hvalid : Target.isValid target)
    (hclear : p.IsClear s caller r target)
    (hrefused : r.IsRefused caller.now staleAfter (p.record? s target)) :
    Refused p.SameContents (p.Tells s caller r target) s (p.storage caller staleAfter r s).1
      (p.storage caller staleAfter r s).2 := by
  cases p with
  | folder root =>
    exact root.perform_refused caller staleAfter hr hvalid hclear.1 hclear.2 hrefused
  | objects path =>
    exact (Objects.ofPath path).perform_refused caller staleAfter hr hvalid hrefused

/-- A disk with a record of nobody's for one target. -/
def blankRecord : Disk.Entry :=
  .folder [("s", .folder [("prod", .folder [("lock.json", .file ByteArray.empty)])])]

/-- A lock that was taken at the beginning of 1970. -/
def oldLock : Lock :=
  ⟨"ann", 1, "t", ⟨0, 0⟩⟩

theorem refuses_release_blank :
    ∃ fault, ((folder ⟨["s"], "s"⟩).storage reader 0 (.release "prod" oldLock) blankRecord).1 =
        .error (.lock fault) ∧
      Disk.SameShapes blankRecord
        ((folder ⟨["s"], "s"⟩).storage reader 0 (.release "prod" oldLock) blankRecord).2 := by
  have hread : Disk.read blankRecord ⟨["s", "prod"], "lock.json"⟩ = .ok ByteArray.empty := by
    rfl
  have hclear : (folder ⟨["s"], "s"⟩).IsClear blankRecord reader (.release "prod" oldLock) "prod" := by
    refine ⟨by decide, fun n hn => ?_⟩
    cases List.mem_singleton.1 hn
    refine ⟨by decide, fun e he => ?_⟩
    cases he
  have hrefused : (Request.release "prod" oldLock).IsRefused reader.now 0
      ((folder ⟨["s"], "s"⟩).record? blankRecord "prod") := by
    refine ⟨⟨by decide, by decide⟩, ?_⟩
    decide
  have htells : (folder ⟨["s"], "s"⟩).Tells blankRecord reader (.release "prod" oldLock) "prod" := by
    refine ⟨fun fault h => ?_, fun n hn => ?_⟩
    · cases hread.symm.trans h
    · cases List.mem_singleton.1 hn
      exact ⟨by decide, by decide⟩
  obtain ⟨hsame, e, he, hlock⟩ := refuses 0 (.release oldLock) (by decide) hclear hrefused
  obtain ⟨fault, rfl⟩ := hlock htells
  exact ⟨fault, he, hsame⟩

/-- Nobody has the lock of a target that no folder can have the name of, and still it is the disk that
refuses. -/
theorem persist_of_long (hvalid : Target.isValid target = true)
    (hlong : Disk.nameLimit < target.utf8ByteSize)
    (hcheck : Disk.Entry.check ["s", target, Target.lockFile] = .ok ()) :
    (folder ⟨["s"], "s"⟩).record? (.folder [("s", .folder [])]) target = none ∧
      ((folder ⟨["s"], "s"⟩).storage reader 0 (.persist target ByteArray.empty oldLock)
        (.folder [("s", .folder [])])).1 = .error (.disk .nameTooLong) := by
  have hroot : Disk.Entry.LeadsTo (.folder [("s", .folder [])]) ["s"] [] := ⟨rfl, rfl⟩
  obtain ⟨hread, hpersist⟩ := @Folder.persist_of_long ⟨["s"], "s"⟩ _ oldLock ByteArray.empty []
    target hroot hvalid hlong hcheck
  exact ⟨congrArg Except.toOption hread, congrArg Prod.fst hpersist⟩

theorem persist_lettered :
    Target.isValid (lettered 300) = true ∧
      (folder ⟨["s"], "s"⟩).record? (.folder [("s", .folder [])]) (lettered 300) = none ∧
      ((folder ⟨["s"], "s"⟩).storage reader 0 (.persist (lettered 300) ByteArray.empty oldLock)
        (.folder [("s", .folder [])])).1 = .error (.disk .nameTooLong) := by
  have hvalid := isValid_lettered (Nat.zero_lt_succ 299)
  have hlong : Disk.nameLimit < (lettered 300).utf8ByteSize := by
    rw [utf8ByteSize_lettered]
    decide
  have hcheck := @check_lettered 300 (by decide) Target.lockFile (by decide) (by decide)
  exact ⟨hvalid, persist_of_long hvalid hlong hcheck⟩

end Place

end ClusterLedger.Backend
