import ClusterLedger.Backend.Objects
import ClusterLedger.Proofs.Backend.Clients
import ClusterLedger.Proofs.Store.Requests

/-!
# Objects in any store

A store may answer as it likes, each time anew. Still no record of another holder is removed unless
it was just read and is stale, and no document is written unless the own record was just read.
-/
namespace ClusterLedger.Store.Request

@[simp] def isCreation : Request → Bool
  | putIfAbsent _ _ => true
  | _ => false

@[simp] def isRemoval : Request → Bool
  | deleteIfMatches _ _ => true
  | _ => false

end ClusterLedger.Store.Request

namespace ClusterLedger.Backend.Objects

open Store (Call Stops)

/-! ## What may be asked -/

/-- The last call has read a record from the object of a key. -/
def JustRead (key : String) (bytes : ByteArray) (lock : Lock) (past : List Call) : Prop :=
  Lock.ofBytes? bytes = some lock ∧ ∃ before, past = before ++ [⟨.get key, .ok (some bytes)⟩]

/-- The last call has read a record with the token of the caller's lock. -/
def Verified (o : Objects) (target : String) (lock : Lock) (past : List Call) : Prop :=
  ∃ bytes current, JustRead (o.keyOf target Target.lockFile) bytes current past ∧
    current.token = lock.token

/-- What an operation may ask of the store after what was asked and answered before. -/
inductive May (o : Objects) (caller : Caller) (staleAfter : Nat) :
    Request → List Call → Store.Request → Prop
  | create {target past} (k : Nat) : May o caller staleAfter (.acquire target) past
      (.putIfAbsent (o.keyOf target Target.lockFile) (caller.lock k).toBytes)
  | inspect {r target past} (about : r.About target) :
      May o caller staleAfter r past (.get (o.keyOf target Target.lockFile))
  | breakStale {target past bytes stale}
      (read : JustRead (o.keyOf target Target.lockFile) bytes stale past)
      (old : stale.isStale caller.now staleAfter) : May o caller staleAfter (.acquire target) past
      (.deleteIfMatches (o.keyOf target Target.lockFile) bytes)
  | giveUp {target lock past} : May o caller staleAfter (.release target lock) past
      (.deleteIfMatches (o.keyOf target Target.lockFile) lock.toBytes)
  | read {target past} : May o caller staleAfter (.load target) past
      (.get (o.keyOf target Target.stateFile))
  | write {target bytes lock past} (verified : o.Verified target lock past) :
      May o caller staleAfter (.persist target bytes lock) past
        (.put (o.keyOf target Target.stateFile) bytes)
  | remove {target lock past} (verified : o.Verified target lock past) :
      May o caller staleAfter (.delete target lock) past
        (.delete (o.keyOf target Target.stateFile))
  | browse {past} : May o caller staleAfter .list past (.list o.path)
  | probe {past name} : May o caller staleAfter .list past
      (.contains (o.keyOf name Target.stateFile))

variable {o : Objects} {caller : Caller} {staleAfter : Nat} {r : Request} {target : String}
  {lock : Lock} {past now : List Call}

theorem About.unique {target' : String} (h : r.About target) (h' : r.About target') :
    target = target' := by
  cases h <;> cases h' <;> rfl

theorem May.isAbout {q : Store.Request} (h : o.May caller staleAfter r past q)
    (hr : r.About target) : q.IsAbout (o.keyOf target Target.lockFile) ∨
      q.IsAbout (o.keyOf target Target.stateFile) := by
  cases h with
  | inspect about =>
    rw [About.unique hr about]
    exact .inl rfl
  | create k => cases hr; exact .inl rfl
  | breakStale read old => cases hr; exact .inl rfl
  | giveUp => cases hr; exact .inl rfl
  | read => cases hr; exact .inr rfl
  | write verified => cases hr; exact .inr rfl
  | remove verified => cases hr; exact .inr rfl
  | browse => cases hr
  | probe => cases hr

/-! ## How often -/

def creations (calls : List Call) : Nat :=
  calls.countP fun c => c.1.isCreation

def removals (calls : List Call) : Nat :=
  calls.countP fun c => c.1.isRemoval

@[simp] theorem creations_append (cs ds : List Call) :
    creations (cs ++ ds) = creations cs + creations ds :=
  List.countP_append

@[simp] theorem removals_append (cs ds : List Call) :
    removals (cs ++ ds) = removals cs + removals ds :=
  List.countP_append

@[simp] theorem creations_cons (c : Call) (cs : List Call) :
    creations (c :: cs) = creations cs + if c.1.isCreation then 1 else 0 :=
  List.countP_cons

@[simp] theorem removals_cons (c : Call) (cs : List Call) :
    removals (c :: cs) = removals cs + if c.1.isRemoval then 1 else 0 :=
  List.countP_cons

@[simp] theorem creations_nil : creations [] = 0 :=
  rfl

@[simp] theorem removals_nil : removals [] = 0 :=
  rfl

/-- The lock that a call has granted. -/
def granted? : (r : Request) → Result r.Yield → Option Lock
  | .acquire _, .ok lock => some lock
  | _, _ => none

/-- The last call has created the record of the caller's lock. -/
def JustCreated (key : String) (lock : Lock) (calls : List Call) : Prop :=
  ∃ before, calls = before ++ [⟨.putIfAbsent key lock.toBytes, .ok true⟩]

/-- What the calls of a try to take a lock, and what it comes to, are like. -/
structure Tried (o : Objects) (caller : Caller) (target : String) (k removing : Nat)
    (past now : List Call) (result : Result Try) : Prop where
  created : creations now ≤ creations past + 1
  removed : removals now ≤ removals past + removing
  grants : ∀ lock, result = .ok (some lock) → lock = caller.lock k ∧
    JustCreated (o.keyOf target Target.lockFile) lock now

/-! ## Operations -/

theorem readLock_obeys {key : String} {P : List Call → Store.Request → Prop}
    {Q : List Call → Result (Option (ByteArray × Lock)) → Prop} (hget : P past (.get key))
    (hnone : Q (past ++ [⟨.get key, .ok none⟩]) (.ok none))
    (hsome : ∀ bytes lock, Lock.ofBytes? bytes = some lock →
      Q (past ++ [⟨.get key, .ok (some bytes)⟩]) (.ok (some (bytes, lock))))
    (herror : ∀ reply e, Q (past ++ [⟨.get key, reply⟩]) (.error e)) :
    (readLock key).Obeys P Q past := by
  refine Store.obeys_ask_bind hget (fun found => ?_) (fun e => herror _ e)
  cases found with
  | none => exact hnone
  | some bytes =>
    cases hlock : Lock.ofBytes? bytes with
    | none => simp only [hlock]; exact herror _ _
    | some lock => simp only [hlock]; exact hsome bytes lock hlock

theorem obeys_key_bind {α : Type} {file : String} {f : String → Attempt Store.effects α}
    {P : List Call → Store.Request → Prop} {Q : List Call → Result α → Prop}
    (h : (f (o.keyOf target file)).Obeys P Q past) (herror : ∀ e, Q past (.error e)) :
    (Attempt.ofResult (o.key target file) >>= f).Obeys P Q past := by
  rw [key]
  cases Target.check target with
  | ok u => exact h
  | error e => exact herror e

theorem tryAcquire_obeys (o : Objects) (caller : Caller) (target : String) (k : Nat)
    {breaksAfter : Option Nat} (hbreaks : ∀ n ∈ breaksAfter, n = staleAfter) (past : List Call) :
    (tryAcquire target (o.keyOf target Target.lockFile) caller (caller.lock k) breaksAfter).Obeys
      (May o caller staleAfter (.acquire target))
      (Tried o caller target k breaksAfter.toList.length past) past := by
  refine Store.obeys_ask_bind (.create k) (fun created => ?_) (fun e => ⟨by simp, by simp, nofun⟩)
  cases created with
  | true =>
    refine ⟨by simp, by simp, fun lock h => ?_⟩
    cases h
    exact ⟨rfl, past, rfl⟩
  | false =>
    refine Attempt.obeys_bind.2 (readLock_obeys (.inspect .acquire) ⟨by simp, by simp, nofun⟩ ?_
      fun reply e => ⟨by simp, by simp, nofun⟩)
    intro bytes current hread
    simp only
    split
    · next hstale =>
      cases breaksAfter with
      | none => cases hstale
      | some n =>
        obtain rfl := hbreaks n rfl
        exact Store.obeys_ask_bind (.breakStale ⟨hread, _, rfl⟩ hstale)
          (fun v => ⟨by simp, by simp, nofun⟩) fun e => ⟨by simp, by simp, nofun⟩
    · exact ⟨by simp, by simp, nofun⟩

/-- How often an operation has created or removed a record, and what it has granted. -/
structure Performed (o : Objects) (caller : Caller) (r : Request) (calls : List Call)
    (result : Result r.Yield) : Prop where
  created : creations calls ≤ 2
  removed : removals calls ≤ 1
  grants : ∀ lock, granted? r result = some lock → ∃ target k, r = .acquire target ∧
    lock = caller.lock k ∧ JustCreated (o.keyOf target Target.lockFile) lock calls

theorem Tried.granted {k removing : Nat}
    (h : Tried o caller target k removing past now (.ok (some lock))) (hpast : creations past ≤ 1)
    (hremoved : removals past + removing ≤ 1) :
    Performed o caller (.acquire target) now (.ok lock) := by
  have hcreated := h.created
  have hremoved' := h.removed
  refine ⟨by omega, by omega, fun lock' hlock => ?_⟩
  cases hlock
  obtain ⟨hlock, hjust⟩ := h.grants lock rfl
  exact ⟨target, k, rfl, hlock, hjust⟩

theorem Tried.refused {k removing : Nat} {result : Result Try}
    (h : Tried o caller target k removing past now result) (hpast : creations past ≤ 1)
    (hremoved : removals past + removing ≤ 1) (e : Error) :
    Performed o caller (.acquire target) now (.error e) := by
  have hcreated := h.created
  have hremoved' := h.removed
  exact ⟨by omega, by omega, nofun⟩

theorem acquire_obeys (o : Objects) (caller : Caller) (staleAfter : Nat) (target : String) :
    (o.acquire caller staleAfter target).Obeys (May o caller staleAfter (.acquire target))
      (Performed o caller (.acquire target)) [] := by
  refine obeys_key_bind ?_ fun e => ⟨by simp, by simp, nofun⟩
  refine Attempt.obeys_bind.2 ((tryAcquire_obeys o caller target 0 (by simp) []).imp ?_)
  intro past result hfirst
  match result with
  | .error e => exact hfirst.refused (by simp) (by simp) e
  | .ok (some lock) => exact hfirst.granted (by simp) (by simp)
  | .ok none =>
    have hcreated : creations past ≤ 1 := hfirst.created
    have hremoved : removals past ≤ 1 := hfirst.removed
    refine Attempt.obeys_bind.2 ((tryAcquire_obeys o caller target 1 (by simp) past).imp ?_)
    intro now result hsecond
    match result with
    | .error e => exact hsecond.refused hcreated hremoved e
    | .ok (some lock) => exact hsecond.granted hcreated hremoved
    | .ok none => exact hsecond.refused hcreated hremoved _

theorem release_obeys (o : Objects) (caller : Caller) (staleAfter : Nat) (target : String)
    (lock : Lock) : (o.release target lock).Obeys (May o caller staleAfter (.release target lock))
      (Performed o caller (.release target lock)) [] := by
  refine obeys_key_bind ?_ fun e => ⟨by simp, by simp, nofun⟩
  refine Store.obeys_ask_bind .giveUp (fun removed => ?_) fun e => ⟨by simp, by simp, nofun⟩
  cases removed with
  | true => exact ⟨by simp, by simp, nofun⟩
  | false => exact Attempt.obeys_bind.2 (readLock_obeys (.inspect (.release lock))
      ⟨by simp, by simp, nofun⟩ (fun bytes lock hread => ⟨by simp, by simp, nofun⟩)
      fun reply e => ⟨by simp, by simp, nofun⟩)

theorem load_obeys (o : Objects) (caller : Caller) (staleAfter : Nat) (target : String) :
    (o.load target).Obeys (May o caller staleAfter (.load target))
      (Performed o caller (.load target)) [] := by
  refine obeys_key_bind ?_ fun e => ⟨by simp, by simp, nofun⟩
  refine Store.obeys_ask_bind .read (fun found => ?_) fun e => ⟨by simp, by simp, nofun⟩
  cases found with
  | none => exact ⟨by simp, by simp, nofun⟩
  | some bytes => exact ⟨by simp, by simp, nofun⟩

/-- What follows on the guard is done when the last call has read the caller's record. -/
theorem obeys_guard_bind {α : Type} {f : Unit → Attempt Store.effects α}
    {Q : List Call → Result α → Prop} (hr : r.About target)
    (hok : ∀ now, o.Verified target lock now → creations now = 0 → removals now = 0 →
      (f ()).Obeys (May o caller staleAfter r) Q now)
    (herror : ∀ now e, creations now = 0 → removals now = 0 → Q now (.error e)) :
    (o.guard target lock >>= f).Obeys (May o caller staleAfter r) Q [] := by
  refine Attempt.obeys_bind.2 (obeys_key_bind ?_ fun e => herror [] e rfl rfl)
  refine Attempt.obeys_bind.2 (readLock_obeys (.inspect hr) ?_ (fun bytes current hread => ?_)
    fun reply e => herror _ e rfl rfl)
  · exact herror _ _ rfl rfl
  · show Attempt.Obeys _ _ _ (Attempt.ofResult (verify target lock (some current)))
    rw [verify]
    split
    · next hsame =>
      have hverified : o.Verified target lock _ :=
        ⟨bytes, current, ⟨hread, [], rfl⟩, Option.some.inj hsame⟩
      exact hok _ hverified rfl rfl
    · exact herror _ _ rfl rfl

theorem persist_obeys (o : Objects) (caller : Caller) (staleAfter : Nat) (target : String)
    (bytes : ByteArray) (lock : Lock) :
    (o.persist target bytes lock).Obeys (May o caller staleAfter (.persist target bytes lock))
      (Performed o caller (.persist target bytes lock)) [] := by
  refine obeys_guard_bind (.persist bytes lock) (fun now hverified hcreated hremoved => ?_)
    fun now e hcreated hremoved => ⟨by simp [hcreated], by simp [hremoved], nofun⟩
  exact ⟨.write hverified, fun reply => ⟨by simp [hcreated], by simp [hremoved], nofun⟩⟩

theorem delete_obeys (o : Objects) (caller : Caller) (staleAfter : Nat) (target : String)
    (lock : Lock) : (o.delete target lock).Obeys (May o caller staleAfter (.delete target lock))
      (Performed o caller (.delete target lock)) [] := by
  refine obeys_guard_bind (.delete lock) (fun now hverified hcreated hremoved => ?_)
    fun now e hcreated hremoved => ⟨by simp [hcreated], by simp [hremoved], nofun⟩
  exact ⟨.remove hverified, fun reply => ⟨by simp [hcreated], by simp [hremoved], nofun⟩⟩

theorem targets_obeys (o : Objects) (caller : Caller) (staleAfter : Nat)
    (listing : List Store.Listed) (hcreated : creations past = 0) (hremoved : removals past = 0) :
    (o.targets listing).Obeys (May o caller staleAfter .list)
      (fun now _ => creations now = 0 ∧ removals now = 0) past := by
  induction listing generalizing past with
  | nil => exact ⟨hcreated, hremoved⟩
  | cons line rest ih =>
    obtain ⟨name, kind⟩ := line
    cases kind with
    | object => exact ih hcreated hremoved
    | folder =>
      refine Attempt.obeys_bind.2 (obeys_key_bind ⟨.probe, fun reply => ?_⟩
        fun e => ⟨hcreated, hremoved⟩)
      cases reply with
      | error e => exact ⟨by simp [hcreated], by simp [hremoved]⟩
      | ok holds =>
        refine Attempt.obeys_bind.2 ((ih (by simp [hcreated]) (by simp [hremoved])).imp ?_)
        intro now others hnow
        cases others with
        | ok names => exact hnow
        | error e => exact hnow

theorem list_obeys (o : Objects) (caller : Caller) (staleAfter : Nat) :
    o.list.Obeys (May o caller staleAfter .list) (Performed o caller .list) [] := by
  refine Store.obeys_ask_bind .browse (fun listing => ?_) fun e => ⟨by simp, by simp, nofun⟩
  refine Attempt.obeys_bind.2 ((targets_obeys o caller staleAfter listing rfl rfl).imp ?_)
  intro now names hnow
  cases names with
  | ok names => exact ⟨by simp [hnow], by simp [hnow], nofun⟩
  | error e => exact ⟨by simp [hnow], by simp [hnow], nofun⟩

/-- Every operation asks only what it may. -/
theorem perform_obeys (o : Objects) (caller : Caller) (staleAfter : Nat) (r : Request) :
    (o.perform caller staleAfter r).Obeys (May o caller staleAfter r) (Performed o caller r) [] := by
  cases r with
  | acquire target => exact acquire_obeys o caller staleAfter target
  | release target lock => exact release_obeys o caller staleAfter target lock
  | load target => exact load_obeys o caller staleAfter target
  | persist target bytes lock => exact persist_obeys o caller staleAfter target bytes lock
  | delete target lock => exact delete_obeys o caller staleAfter target lock
  | list => exact list_obeys o caller staleAfter

/-! ## The first error -/

theorem stops_readLock (key : String) : Stops (readLock key) := by
  refine (Store.stops_ask _).bind fun found => ?_
  cases found with
  | none => exact Store.stops_pure _
  | some bytes =>
    cases hlock : Lock.ofBytes? bytes with
    | none => simp only [hlock]; exact Store.stops_throw _
    | some lock => simp only [hlock]; exact Store.stops_pure _

theorem stops_tryAcquire (target key : String) (caller : Caller) (fresh : Lock)
    (breaksAfter : Option Nat) : Stops (tryAcquire target key caller fresh breaksAfter) := by
  refine (Store.stops_ask _).bind fun created => .ite (Store.stops_pure _) ?_
  refine (stops_readLock key).bind fun found => ?_
  cases found with
  | none => exact Store.stops_pure _
  | some found =>
    exact .ite ((Store.stops_ask _).bind fun _ => Store.stops_pure _) (Store.stops_throw _)

theorem stops_guard (o : Objects) (target : String) (lock : Lock) : Stops (o.guard target lock) :=
  (Store.stops_ofResult _).bind fun key =>
    (stops_readLock key).bind fun _ => Store.stops_ofResult _

theorem stops_targets (o : Objects) (listing : List Store.Listed) : Stops (o.targets listing) := by
  induction listing with
  | nil => exact Store.stops_pure _
  | cons line rest ih =>
    obtain ⟨name, kind⟩ := line
    cases kind with
    | object => exact ih
    | folder =>
      refine Stops.bind ?_ fun holds => ih.bind fun others => Store.stops_pure _
      exact (Store.stops_ofResult _).bind fun key => Store.stops_ask _

/-- Every operation ends with the first error of the store, which it reports. -/
theorem stops_perform (o : Objects) (caller : Caller) (staleAfter : Nat) (r : Request) :
    Stops (o.perform caller staleAfter r) := by
  cases r with
  | acquire target =>
    refine (Store.stops_ofResult _).bind fun key => (stops_tryAcquire _ _ _ _ _).bind fun first => ?_
    cases first with
    | some lock => exact Store.stops_pure _
    | none =>
      refine (stops_tryAcquire _ _ _ _ _).bind fun second => ?_
      cases second with
      | some lock => exact Store.stops_pure _
      | none => exact Store.stops_throw _
  | release target lock =>
    refine (Store.stops_ofResult _).bind fun key => (Store.stops_ask _).bind fun removed => ?_
    exact .ite (Store.stops_pure _) ((stops_readLock key).bind fun _ => Store.stops_throw _)
  | load target =>
    refine (Store.stops_ofResult _).bind fun key => (Store.stops_ask _).bind fun found => ?_
    cases found with
    | none => exact Store.stops_throw _
    | some bytes => exact Store.stops_pure _
  | persist target bytes lock => exact (stops_guard _ _ _).bind fun _ => Store.stops_ask _
  | delete target lock => exact (stops_guard _ _ _).bind fun _ => Store.stops_ask _
  | list =>
    exact (Store.stops_ask _).bind fun _ => (stops_targets _ _).bind fun _ => Store.stops_pure _

/-! ## Restraint -/

/-- The calls of an operation with their answers, and its result. A lock is granted only for a record
that the last call has created; records are removed by their bytes, those of others once and only
when just read and stale; documents are changed only when the last call has read the caller's record;
there are no objects but those of the target; and the first error ends the operation. -/
structure Restrained (o : Objects) (caller : Caller) (staleAfter : Nat) (r : Request)
    (calls : List Call) (result : Result r.Yield) : Prop where
  grants : ∀ lock, granted? r result = some lock → ∃ target k, r = .acquire target ∧
    lock = caller.lock k ∧ JustCreated (o.keyOf target Target.lockFile) lock calls
  created : creations calls ≤ 2
  removed : removals calls ≤ 1
  removes : ∀ before key bytes reply after,
    calls = before ++ ⟨.deleteIfMatches key bytes, reply⟩ :: after →
      (∃ target stale, r = .acquire target ∧ key = o.keyOf target Target.lockFile ∧
        JustRead key bytes stale before ∧ stale.isStale caller.now staleAfter) ∨
      ∃ target lock, r = .release target lock ∧ key = o.keyOf target Target.lockFile ∧
        bytes = lock.toBytes
  puts : ∀ before key bytes reply after, calls = before ++ ⟨.put key bytes, reply⟩ :: after →
    ∃ target lock, r = .persist target bytes lock ∧ key = o.keyOf target Target.stateFile ∧
      o.Verified target lock before
  deletes : ∀ before key reply after, calls = before ++ ⟨.delete key, reply⟩ :: after →
    ∃ target lock, r = .delete target lock ∧ key = o.keyOf target Target.stateFile ∧
      o.Verified target lock before
  keys : ∀ target, r.About target → ∀ c ∈ calls, c.1.IsAbout (o.keyOf target Target.lockFile) ∨
    c.1.IsAbout (o.keyOf target Target.stateFile)
  stops : ∀ before q e after, calls = before ++ ⟨q, .error e⟩ :: after →
    after = [] ∧ result = .error e

theorem trace_restrained {calls : List Call} {result : Result r.Yield}
    (h : (o.perform caller staleAfter r).Trace calls result) :
    o.Restrained caller staleAfter r calls result := by
  obtain ⟨hmay, hperformed⟩ := (perform_obeys o caller staleAfter r).trace h
  simp only [List.nil_append] at hmay hperformed
  refine ⟨hperformed.grants, hperformed.created, hperformed.removed, ?_, ?_, ?_, ?_,
    stops_perform o caller staleAfter r calls result h⟩
  · intro before key bytes reply after hcalls
    cases hmay before _ after hcalls with
    | breakStale read old => exact .inl ⟨_, _, rfl, rfl, read, old⟩
    | giveUp => exact .inr ⟨_, _, rfl, rfl, rfl⟩
  · intro before key bytes reply after hcalls
    cases hmay before _ after hcalls with
    | write verified => exact ⟨_, _, rfl, rfl, verified⟩
  · intro before key reply after hcalls
    cases hmay before _ after hcalls with
    | remove verified => exact ⟨_, _, rfl, rfl, verified⟩
  · intro target hr c hc
    obtain ⟨before, after, hcalls⟩ := List.append_of_mem hc
    exact (hmay before c after hcalls).isAbout hr

/-- Every operation is restrained, whatever the store answers. -/
theorem perform_restrained {σ : Type} (o : Objects) (caller : Caller) (staleAfter : Nat) (r : Request)
    (answer : (q : Store.Request) → σ → Result q.Yield × σ) (s : σ) :
    o.Restrained caller staleAfter r ((o.perform caller staleAfter r).program.calls answer s)
      ((o.perform caller staleAfter r).run answer s).1 :=
  trace_restrained (Program.trace_calls answer (o.perform caller staleAfter r).program s)

end ClusterLedger.Backend.Objects
