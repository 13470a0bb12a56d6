import ClusterLedger.Backend.Objects
import ClusterLedger.Proofs.Attempt
import ClusterLedger.Proofs.Backend.Clients
import ClusterLedger.Proofs.Dict
import ClusterLedger.Proofs.Except
import ClusterLedger.Proofs.Lock.Record
import ClusterLedger.Store.Memory

/-!
# Objects that guard their writes

In a store in memory a lock record is an object of its own, beside that of the document. It changes
by a record that is put where there is none, and by the removal of exactly the bytes that were read.
-/
namespace ClusterLedger.Backend.Objects

open Attempt (Chains)
open Store (Memory.answer)

variable {o : Objects} {target : String} {caller : Caller} {s s' : Store.Memory.Objects}
  {lock : Lock} {bytes : ByteArray} {α β : Type}

/-! ## The record of a target -/

/-- The token of the record that is stored for a target. -/
def slot (o : Objects) (target : String) (s : Store.Memory.Objects) : Option String :=
  Lock.tokenIn? (s.get? (o.keyOf target Target.lockFile))

/-- The key of the lock is not that of the document. -/
theorem keyOf_ne (o : Objects) (target : String) :
    o.keyOf target Target.lockFile ≠ o.keyOf target Target.stateFile := by
  have hfiles : Target.lockFile ≠ Target.stateFile := by decide
  rw [keyOf, keyOf]
  split
  · exact fun h => hfiles ((String.append_right_inj _).1 h)
  · exact fun h => hfiles ((String.append_right_inj _).1 h)

/-- What a call about the lock does: the record stays, or it is removed, or it is one that the caller
has made; and the document stays as it is. -/
structure Change (o : Objects) (target : String) (caller : Caller) (s s' : Store.Memory.Objects) :
    Prop where
  slot : o.slot target s' = o.slot target s ∨ o.slot target s' = none ∨
    ∃ k, o.slot target s' = some (caller.token k)
  document : s'.get? (o.keyOf target Target.stateFile) = s.get? (o.keyOf target Target.stateFile)

theorem chains_change (o : Objects) (target : String) (caller : Caller) :
    Chains (o.Change target caller) where
  refl _ := ⟨.inl rfl, rfl⟩
  trans h h' := by
    refine ⟨?_, h'.document.trans h.document⟩
    rcases h'.slot with hslot | hslot
    · rw [hslot]
      exact h.slot
    · exact .inr hslot

theorem change_insert (k : Nat) (s : Store.Memory.Objects) : o.Change target caller s
    (s.insert (o.keyOf target Target.lockFile) (caller.lock k).toBytes) := by
  refine ⟨.inr ?_, ?_⟩
  · rw [slot, Dict.get?_insert, if_pos rfl]
    exact (Lock.tokenIn?_toBytes (caller.lock k)).imp_right fun h => ⟨k, h⟩
  · rw [Dict.get?_insert, if_neg (o.keyOf_ne target)]

theorem change_erase (s : Store.Memory.Objects) :
    o.Change target caller s (s.erase (o.keyOf target Target.lockFile)) := by
  refine ⟨.inr (.inl ?_), ?_⟩
  · rw [slot, Dict.get?_erase, if_pos rfl]
    rfl
  · rw [Dict.get?_erase, if_neg (o.keyOf_ne target)]

/-! ## Steps -/

/-- A request of the store is answered, and the rest is done, as no request fails. -/
theorem ends_ask_bind {r : Store.Request} {f : r.Yield → Attempt Store.effects β} {v : r.Yield}
    {P : Result β → Store.Memory.Objects → Prop} (hanswer : Memory.answer r s = (.ok v, s'))
    (h : (f v).Ends Memory.answer s' P) : (Store.ask r >>= f).Ends Memory.answer s P :=
  Attempt.ends_bind_of_run hanswer h

/-- Reading a record changes nothing. -/
theorem readLock_ends (key : String) (s : Store.Memory.Objects) :
    (readLock key).Ends Memory.answer s fun r s' => s' = s ∧
      ∀ found, r = .ok found → (found.map (·.2)).map Lock.token = Lock.tokenIn? (s.get? key) := by
  have hanswer : Memory.answer (.get key) s = (.ok (s.get? key), s) := rfl
  refine ends_ask_bind hanswer ?_
  cases s.get? key with
  | none => exact ⟨rfl, fun found h => by cases h; rfl⟩
  | some bytes =>
    simp only [Lock.tokenIn?, Option.bind_some]
    cases Lock.ofBytes? bytes with
    | none => exact ⟨rfl, fun found h => by cases h⟩
    | some lock => exact ⟨rfl, fun found h => by cases h; rfl⟩

/-- An operation on a target is the one on its keys, or the name is refused. -/
theorem ends_key_bind {file : String} {f : String → Attempt Store.effects β}
    {P : Result β → Store.Memory.Objects → Prop} (herror : ∀ e, P (.error e) s)
    (h : (f (o.keyOf target file)).Ends Memory.answer s P) :
    (Attempt.ofResult (o.key target file) >>= f).Ends Memory.answer s P := by
  refine Attempt.ends_bind.2 (Attempt.ends_ofResult.2 ?_)
  cases hkey : o.key target file with
  | error e => exact herror e
  | ok key =>
    obtain ⟨-, -, rfl⟩ := Except.map_eq_ok.1 hkey
    exact h

/-! ## Locks -/

/-- A try writes a record of the caller, or removes one that is stale. If it succeeds, the bytes of
the record are stored. -/
theorem tryAcquire_ends (o : Objects) (target : String) (caller : Caller) (k : Nat)
    (breaksAfter : Option Nat) (s : Store.Memory.Objects) :
    (tryAcquire target (o.keyOf target Target.lockFile) caller (caller.lock k) breaksAfter).Ends
      Memory.answer s fun r s' => o.Change target caller s s' ∧
        ∀ lock, r = .ok (some lock) → lock = caller.lock k ∧
          s'.get? (o.keyOf target Target.lockFile) = some lock.toBytes := by
  have hrefl := (chains_change o target caller).refl s
  cases hcontains : s.contains (o.keyOf target Target.lockFile) with
  | false =>
    have hanswer : Memory.answer
        (.putIfAbsent (o.keyOf target Target.lockFile) (caller.lock k).toBytes) s =
          (.ok true, s.insert (o.keyOf target Target.lockFile) (caller.lock k).toBytes) := by
      simp only [Memory.answer, hcontains]
      rfl
    refine ends_ask_bind hanswer ⟨change_insert k s, fun lock h => ?_⟩
    cases h
    exact ⟨rfl, (Dict.get?_insert ..).trans (if_pos rfl)⟩
  | true =>
    have hanswer : Memory.answer
        (.putIfAbsent (o.keyOf target Target.lockFile) (caller.lock k).toBytes) s =
          (.ok false, s) := by
      simp only [Memory.answer, hcontains]
      rfl
    refine ends_ask_bind hanswer (Attempt.ends_bind.2 ((readLock_ends _ s).imp ?_))
    rintro (e | found) s' ⟨rfl, -⟩
    · exact ⟨hrefl, nofun⟩
    cases found with
    | none => exact ⟨hrefl, nofun⟩
    | some found =>
      show Attempt.Ends _ (if _ then _ else _) _ _
      split
      · by_cases hsame : s'.get? (o.keyOf target Target.lockFile) = some found.1
        · have hanswer : Memory.answer
              (.deleteIfMatches (o.keyOf target Target.lockFile) found.1) s' =
                (.ok true, s'.erase (o.keyOf target Target.lockFile)) := if_pos hsame
          exact ends_ask_bind hanswer ⟨change_erase s', nofun⟩
        · have hanswer : Memory.answer
              (.deleteIfMatches (o.keyOf target Target.lockFile) found.1) s' =
                (.ok false, s') := if_neg hsame
          exact ends_ask_bind hanswer ⟨hrefl, nofun⟩
      · exact ⟨hrefl, nofun⟩

theorem acquire_ends (o : Objects) (caller : Caller) (staleAfter : Nat) (target : String)
    (s : Store.Memory.Objects) :
    (o.acquire caller staleAfter target).Ends Memory.answer s fun r s' =>
      o.Change target caller s s' ∧ ∀ lock, r = .ok lock → (∃ k, lock = caller.lock k) ∧
        s'.get? (o.keyOf target Target.lockFile) = some lock.toBytes := by
  have hchain := chains_change o target caller
  refine ends_key_bind (fun e => ⟨hchain.refl s, nofun⟩) ?_
  refine Attempt.ends_bind.2 ((o.tryAcquire_ends target caller 0 _ s).imp ?_)
  rintro (e | lock) s1 ⟨hchange, htaken⟩
  · exact ⟨hchange, nofun⟩
  cases lock with
  | some lock =>
    refine ⟨hchange, fun lock' h => ?_⟩
    cases h
    exact (htaken lock rfl).imp_left fun h => ⟨0, h⟩
  | none =>
    refine Attempt.ends_bind.2 ((o.tryAcquire_ends target caller 1 _ s1).imp ?_)
    rintro (e | lock) s2 ⟨hchange', htaken'⟩
    · exact ⟨hchain.trans hchange hchange', nofun⟩
    cases lock with
    | some lock =>
      refine ⟨hchain.trans hchange hchange', fun lock' h => ?_⟩
      cases h
      exact (htaken' lock rfl).imp_left fun h => ⟨1, h⟩
    | none => exact ⟨hchain.trans hchange hchange', nofun⟩

theorem release_ends (o : Objects) (caller : Caller) (target : String) (lock : Lock)
    (s : Store.Memory.Objects) :
    (o.release target lock).Ends Memory.answer s fun _ s' => o.Change target caller s s' := by
  have hrefl := (chains_change o target caller).refl s
  refine ends_key_bind (fun e => hrefl) ?_
  by_cases hsame : s.get? (o.keyOf target Target.lockFile) = some lock.toBytes
  · have hanswer : Memory.answer (.deleteIfMatches (o.keyOf target Target.lockFile) lock.toBytes) s =
        (.ok true, s.erase (o.keyOf target Target.lockFile)) := if_pos hsame
    exact ends_ask_bind hanswer (change_erase s)
  · have hanswer : Memory.answer (.deleteIfMatches (o.keyOf target Target.lockFile) lock.toBytes) s =
        (.ok false, s) := if_neg hsame
    refine ends_ask_bind hanswer (Attempt.ends_bind.2 ((readLock_ends _ s).imp ?_))
    rintro (e | found) s' ⟨rfl, -⟩
    · exact hrefl
    · exact hrefl

/-! ## Documents -/

/-- Whoever gets past the guard has the token on record. -/
theorem guard_ends (o : Objects) (target : String) (lock : Lock) (s : Store.Memory.Objects) :
    (o.guard target lock).Ends Memory.answer s fun r s' =>
      s' = s ∧ (r = .ok () → o.slot target s = some lock.token) := by
  refine ends_key_bind (fun e => ⟨rfl, nofun⟩) ?_
  refine Attempt.ends_bind.2 ((readLock_ends _ s).imp ?_)
  rintro (e | found) s' ⟨rfl, hfound⟩
  · exact ⟨rfl, nofun⟩
  · refine ⟨rfl, fun h => ?_⟩
    change verify target lock (found.map (·.2)) = .ok () at h
    rw [verify] at h
    split at h
    · next htoken => exact (hfound found rfl).symm.trans htoken
    · cases h

/-- Behind the guard the record stays as it is. -/
theorem ends_guard_bind {f : Unit → Attempt Store.effects Unit}
    (hf : (f ()).Ends Memory.answer s fun _ s' =>
      s'.get? (o.keyOf target Target.lockFile) = s.get? (o.keyOf target Target.lockFile)) :
    (o.guard target lock >>= f).Ends Memory.answer s fun r s' =>
      (r = .ok () → o.slot target s = some lock.token) ∧
        (s' = s ∨ o.slot target s = some lock.token ∧ o.slot target s' = o.slot target s) := by
  refine Attempt.ends_bind.2 ((o.guard_ends target lock s).imp ?_)
  rintro (e | u) s' ⟨rfl, hrecord⟩
  · exact ⟨nofun, .inl rfl⟩
  · refine hf.imp fun r s'' h => ⟨fun _ => hrecord rfl, .inr ⟨hrecord rfl, ?_⟩⟩
    rw [slot, slot, h]

theorem persist_ends (o : Objects) (target : String) (bytes : ByteArray) (lock : Lock)
    (s : Store.Memory.Objects) :
    (o.persist target bytes lock).Ends Memory.answer s fun r s' =>
      (r = .ok () → o.slot target s = some lock.token) ∧
        (s' = s ∨ o.slot target s = some lock.token ∧ o.slot target s' = o.slot target s) := by
  refine ends_guard_bind ?_
  show Dict.get? (Dict.insert s _ bytes) _ = _
  rw [Dict.get?_insert, if_neg (o.keyOf_ne target).symm]

theorem delete_ends (o : Objects) (target : String) (lock : Lock) (s : Store.Memory.Objects) :
    (o.delete target lock).Ends Memory.answer s fun r s' =>
      (r = .ok () → o.slot target s = some lock.token) ∧
        (s' = s ∨ o.slot target s = some lock.token ∧ o.slot target s' = o.slot target s) := by
  refine ends_guard_bind ?_
  show Dict.get? (Dict.erase s _) _ = _
  rw [Dict.get?_erase, if_neg (o.keyOf_ne target).symm]

/-- The document of a target, if it is one. -/
def document (o : Objects) (target : String) (s : Store.Memory.Objects) : Result ByteArray :=
  (o.key target Target.stateFile).bind fun key => match s.get? key with
    | some bytes => .ok bytes
    | none => .error (.missing (.object target key))

theorem load_run (o : Objects) (target : String) (s : Store.Memory.Objects) :
    (o.load target).run Memory.answer s = (o.document target s, s) := by
  have hends : (o.load target).Ends Memory.answer s fun r s' =>
      s' = s ∧ r = o.document target s := by
    refine Attempt.ends_bind.2 (Attempt.ends_ofResult.2 ?_)
    rw [document]
    cases o.key target Target.stateFile with
    | error e => exact ⟨rfl, rfl⟩
    | ok key =>
      have hanswer : Memory.answer (.get key) s = (.ok (s.get? key), s) := rfl
      refine ends_ask_bind hanswer ?_
      simp only [Except.bind]
      cases s.get? key with
      | none => exact ⟨rfl, rfl⟩
      | some bytes => exact ⟨rfl, rfl⟩
  exact Prod.ext hends.2 hends.1

theorem document_congr
    (h : s'.get? (o.keyOf target Target.stateFile) = s.get? (o.keyOf target Target.stateFile)) :
    o.document target s' = o.document target s := by
  rw [document, document]
  cases hkey : o.key target Target.stateFile with
  | error e => rfl
  | ok key =>
    obtain ⟨-, -, rfl⟩ := Except.map_eq_ok.1 hkey
    simp only [Except.bind, h]

/-! ## Calls that succeed -/

theorem key_of_isValid (h : Target.isValid target = true) (file : String) :
    o.key target file = .ok (o.keyOf target file) := by
  rw [key, Target.check, if_pos h]
  rfl

theorem ends_eq {a : Attempt Store.effects α} {r : Result α}
    (h : a.Ends Memory.answer s fun r' s'' => r' = r ∧ s'' = s') : a.run Memory.answer s = (r, s') :=
  Prod.ext h.1 h.2

theorem readLock_run {key : String} (hget : s.get? key = some bytes)
    (hlock : Lock.ofBytes? bytes = some lock) :
    (readLock key).run Memory.answer s = (.ok (some (bytes, lock)), s) := by
  have hanswer : Memory.answer (.get key) s = (.ok (some bytes), s) := by
    rw [← hget]
    rfl
  refine ends_eq (ends_ask_bind hanswer ?_)
  simp only [hlock]
  exact ⟨rfl, rfl⟩

/-- A lock that nobody has is taken. -/
theorem acquire_free (hvalid : Target.isValid target = true)
    (h : s.get? (o.keyOf target Target.lockFile) = none) (staleAfter : Nat) :
    (o.acquire caller staleAfter target).run Memory.answer s = (.ok (caller.lock 0),
      s.insert (o.keyOf target Target.lockFile) (caller.lock 0).toBytes) := by
  have hanswer : Memory.answer
      (.putIfAbsent (o.keyOf target Target.lockFile) (caller.lock 0).toBytes) s =
        (.ok true, s.insert (o.keyOf target Target.lockFile) (caller.lock 0).toBytes) :=
    if_neg (by rw [Dict.contains, h]; decide)
  refine ends_eq (Attempt.ends_bind.2 (Attempt.ends_ofResult.2 ?_))
  rw [key_of_isValid hvalid]
  exact Attempt.ends_bind.2 (ends_ask_bind hanswer ⟨rfl, rfl⟩)

/-- A lock that is stale is broken and taken. -/
theorem acquire_stale (hvalid : Target.isValid target = true)
    (h : s.get? (o.keyOf target Target.lockFile) = some bytes)
    (hlock : Lock.ofBytes? bytes = some lock) {staleAfter : Nat}
    (hstale : lock.isStale caller.now staleAfter = true) :
    (o.acquire caller staleAfter target).run Memory.answer s = (.ok (caller.lock 1),
      (s.erase (o.keyOf target Target.lockFile)).insert (o.keyOf target Target.lockFile)
        (caller.lock 1).toBytes) := by
  have hput : Memory.answer
      (.putIfAbsent (o.keyOf target Target.lockFile) (caller.lock 0).toBytes) s = (.ok false, s) :=
    if_pos (by rw [Dict.contains, h]; rfl)
  have hdelete : Memory.answer (.deleteIfMatches (o.keyOf target Target.lockFile) bytes) s =
      (.ok true, s.erase (o.keyOf target Target.lockFile)) := if_pos h
  refine ends_eq (Attempt.ends_bind.2 (Attempt.ends_ofResult.2 ?_))
  rw [key_of_isValid hvalid]
  refine Attempt.ends_bind.2 (ends_ask_bind hput
    (Attempt.ends_bind_of_run (readLock_run h hlock) ?_))
  show Attempt.Ends _ (if lock.isStale caller.now staleAfter = true then _ else _) _ _
  rw [if_pos hstale]
  have hagain : Memory.answer (.putIfAbsent (o.keyOf target Target.lockFile)
      (caller.lock 1).toBytes) (s.erase (o.keyOf target Target.lockFile)) =
        (.ok true, (s.erase (o.keyOf target Target.lockFile)).insert
          (o.keyOf target Target.lockFile) (caller.lock 1).toBytes) :=
    if_neg (by rw [Dict.contains, Dict.get?_erase, if_pos rfl]; decide)
  refine ends_ask_bind hdelete (Attempt.ends_pure.2 (Attempt.ends_bind.2 ?_))
  exact ends_ask_bind hagain ⟨rfl, rfl⟩

/-- Whoever has the token on record can write. -/
theorem persist_of_slot (hvalid : Target.isValid target = true)
    (h : o.slot target s = some lock.token) (bytes : ByteArray) :
    (o.persist target bytes lock).run Memory.answer s =
      (.ok (), s.insert (o.keyOf target Target.stateFile) bytes) := by
  obtain ⟨found, hfound, htoken⟩ := Option.map_eq_some_iff.1 h
  obtain ⟨stored, hget, hlock⟩ := Option.bind_eq_some_iff.1 hfound
  have hverify : verify target lock (some found) = .ok () := if_pos (congrArg some htoken)
  refine ends_eq (Attempt.ends_bind.2 (Attempt.ends_bind.2 (Attempt.ends_ofResult.2 ?_)))
  rw [key_of_isValid hvalid]
  refine Attempt.ends_bind_of_run (readLock_run hget hlock) ?_
  show Attempt.Ends _ (Attempt.ofResult (verify target lock (some found))) _ _
  rw [hverify]
  exact ⟨rfl, rfl⟩

/-! ## The storage -/


/-- The storage of objects in memory. -/
def storage (o : Objects) : Storage Store.Memory.Objects :=
  fun caller staleAfter r s => (o.perform caller staleAfter r).run Memory.answer s

/-- What a call about a target comes to: a change, or the document is written by the holder of the
lock. -/
inductive Course (o : Objects) (target : String) (caller : Caller) (r : Request)
    (s s' : Store.Memory.Objects) : Prop
  | change (h : o.Change target caller s s')
  | write (t : String) (hrecord : o.slot target s = some t) (hfor : r.WritesFor t)
      (h : o.slot target s' = o.slot target s)

theorem course_of_eq {r : Request} (h : s' = s) : o.Course target caller r s s' := by
  rw [h]
  exact .change ((chains_change o target caller).refl s)

theorem course (o : Objects) (caller : Caller) (staleAfter : Nat) {r : Request}
    (hr : r.About target) (s : Store.Memory.Objects) :
    o.Course target caller r s (o.storage caller staleAfter r s).2 := by
  cases hr with
  | acquire => exact .change (o.acquire_ends caller staleAfter target s).1
  | release lock => exact .change (o.release_ends caller target lock s)
  | load => exact course_of_eq (congrArg Prod.snd (o.load_run target s))
  | persist bytes lock =>
    rcases (o.persist_ends target bytes lock s).2 with hsame | ⟨hrecord, hslot⟩
    · exact course_of_eq hsame
    · exact .write lock.token hrecord rfl hslot
  | delete lock =>
    rcases (o.delete_ends target lock s).2 with hsame | ⟨hrecord, hslot⟩
    · exact course_of_eq hsame
    · exact .write lock.token hrecord rfl hslot

theorem Course.slot {r : Request} (h : o.Course target caller r s s') :
    o.slot target s' = o.slot target s ∨ o.slot target s' = none ∨
      ∃ k, o.slot target s' = some (caller.token k) := by
  cases h with
  | change h => exact h.slot
  | write t _ _ h => exact .inl h

/-- The storage of objects in memory guards its writes. -/
theorem guarded (o : Objects) (target : String) :
    Guarded o.storage target (o.slot target) (o.slot target) (o.document target) where
  slot_of_onRecord h := h
  loads _ _ s := o.load_run target s
  acquires caller staleAfter s lock h := by
    obtain ⟨⟨k, rfl⟩, -⟩ := (o.acquire_ends caller staleAfter target s).2 lock h
    exact ⟨⟨k, rfl⟩, id⟩
  persists _ _ bytes lock s := (o.persist_ends target bytes lock s).1
  deletes _ _ lock s := (o.delete_ends target lock s).1
  slot_kept caller staleAfter _ s hr := (o.course caller staleAfter hr s).slot
  steady caller staleAfter r s t hr hrecord hslot := by
    refine ⟨hslot, fun hnot => ?_⟩
    cases o.course caller staleAfter hr s with
    | change h => exact document_congr h.document
    | write t' hrecord' hfor _ =>
      obtain rfl : t' = t := Option.some.inj (hrecord'.symm.trans hrecord)
      exact absurd hfor hnot

end ClusterLedger.Backend.Objects
