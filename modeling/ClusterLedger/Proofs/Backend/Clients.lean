import ClusterLedger.Backend.Basic

/-!
# Clients of one target

Any number of clients take the lock of a target, load, write once and give the lock up, each call of
the storage being one step and the clients in any order. A lock can be broken at any time. What a
storage has to do so that no update is lost is said by `Guarded`; the argument is about tokens only:
one that is on record when its holder writes has been on record since its holder took the lock.
-/
namespace ClusterLedger.Backend

/-- A storage: what a call yields, given the caller and the age at which locks are stale, and the
storage afterwards. -/
abbrev Storage (σ : Type) := Caller → Nat → (r : Request) → σ → Result r.Yield × σ

/-! ## Runs of clients -/

/-- How far a client has come. -/
inductive Phase where
  | idle
  | holding (lock : Lock)
  | loaded (lock : Lock) (snapshot : Result ByteArray)
  | written (lock : Lock)

/-- The lock that a client has acquired and not given up. -/
def Phase.lock? : Phase → Option Lock
  | idle => none
  | holding lock | loaded lock _ | written lock => some lock

/-- The phase after a try to take the lock. -/
def Phase.taken : Result Lock → Phase
  | .ok lock => holding lock
  | .error _ => idle

/-- What a client has done. A write tells which snapshot it found, successful or not. -/
inductive Event (ι : Type) where
  | acquire (client : ι) (reply : Result Lock)
  | load (client : ι) (reply : Result ByteArray)
  | write (client : ι) (found : Result ByteArray) (reply : Result Unit)
  | release (client : ι) (reply : Result Unit)

namespace Event

variable {ι : Type}

/-- A client has taken the lock. -/
def Takes (i : ι) : Event ι → Prop
  | acquire j (.ok _) => j = i
  | _ => False

/-- A client has changed the snapshot. -/
def Commits (i : ι) : Event ι → Prop
  | write j _ (.ok ()) => j = i
  | _ => False

instance [DecidableEq ι] (i : ι) (e : Event ι) : Decidable (e.Takes i) := by
  unfold Takes
  split <;> infer_instance

theorem not_takes_load {i j : ι} {reply : Result ByteArray} : ¬(load i reply).Takes j :=
  id

theorem not_takes_write {i j : ι} {found : Result ByteArray} {reply : Result Unit} :
    ¬(write i found reply).Takes j :=
  id

/-- Who has done it. -/
def client : Event ι → ι
  | acquire i _ | load i _ | write i _ _ | release i _ => i

theorem Takes.client_eq {i : ι} {e : Event ι} (h : e.Takes i) : e.client = i := by
  cases e with
  | acquire j reply =>
    cases reply with
    | ok lock => exact h
    | error fault => cases h
  | _ => cases h

theorem Commits.client_eq {i : ι} {e : Event ι} (h : e.Commits i) : e.client = i := by
  cases e with
  | write j found reply =>
    cases reply with
    | ok u => exact h
    | error fault => cases h
  | _ => cases h

end Event

/-- The clients, their storage, and the tokens that have been used up. -/
structure World (ι σ : Type) where
  storage : σ
  phase : ι → Phase
  used : String → Prop

variable {ι σ : Type} [DecidableEq ι]

namespace World

/-- All clients are about to begin. -/
def start (s : σ) : World ι σ :=
  ⟨s, fun _ => .idle, fun _ => False⟩

/-- No token of the caller has been used before. -/
def Fresh (w : World ι σ) (caller : Caller) : Prop :=
  ∀ k, ¬w.used (caller.token k)

/-- A client has made a call and come to a phase. -/
def next (w : World ι σ) (i : ι) (caller : Caller) (p : Phase) (s : σ) : World ι σ :=
  ⟨s, fun j => if j = i then p else w.phase j, fun t => w.used t ∨ ∃ k, t = caller.token k⟩

end World

/-- One client makes one call, at any time of its clock and with any notion of a stale lock. -/
inductive ClientStep (call : Storage σ) (target : String) :
    World ι σ → Event ι → World ι σ → Prop
  | acquire {w : World ι σ} {i : ι} (caller : Caller) (staleAfter : Nat) (fresh : w.Fresh caller)
      (idle : w.phase i = .idle) :
      ClientStep call target w
        (.acquire i (call caller staleAfter (.acquire target) w.storage).1)
        (w.next i caller (.taken (call caller staleAfter (.acquire target) w.storage).1)
          (call caller staleAfter (.acquire target) w.storage).2)
  | load {w : World ι σ} {i : ι} {lock : Lock} (caller : Caller) (staleAfter : Nat)
      (fresh : w.Fresh caller) (holding : w.phase i = .holding lock) :
      ClientStep call target w
        (.load i (call caller staleAfter (.load target) w.storage).1)
        (w.next i caller (.loaded lock (call caller staleAfter (.load target) w.storage).1)
          (call caller staleAfter (.load target) w.storage).2)
  | persist {w : World ι σ} {i : ι} {lock : Lock} {snapshot : Result ByteArray} (caller : Caller)
      (staleAfter : Nat) (bytes : ByteArray) (fresh : w.Fresh caller)
      (loaded : w.phase i = .loaded lock snapshot) :
      ClientStep call target w
        (.write i (call caller staleAfter (.load target) w.storage).1
          (call caller staleAfter (.persist target bytes lock) w.storage).1)
        (w.next i caller (.written lock)
          (call caller staleAfter (.persist target bytes lock) w.storage).2)
  | delete {w : World ι σ} {i : ι} {lock : Lock} {snapshot : Result ByteArray} (caller : Caller)
      (staleAfter : Nat) (fresh : w.Fresh caller) (loaded : w.phase i = .loaded lock snapshot) :
      ClientStep call target w
        (.write i (call caller staleAfter (.load target) w.storage).1
          (call caller staleAfter (.delete target lock) w.storage).1)
        (w.next i caller (.written lock)
          (call caller staleAfter (.delete target lock) w.storage).2)
  | release {w : World ι σ} {i : ι} {lock : Lock} (caller : Caller) (staleAfter : Nat)
      (fresh : w.Fresh caller) (held : (w.phase i).lock? = some lock) :
      ClientStep call target w
        (.release i (call caller staleAfter (.release target lock) w.storage).1)
        (w.next i caller .idle (call caller staleAfter (.release target lock) w.storage).2)

/-- The events of a run, the last one first, and the world after it. -/
inductive ClientRun (call : Storage σ) (target : String) (s : σ) :
    List (Event ι) → World ι σ → Prop
  | start : ClientRun call target s [] (.start s)
  | step {es : List (Event ι)} {e : Event ι} {w w' : World ι σ}
      (run : ClientRun call target s es w) (next : ClientStep call target w e w') :
      ClientRun call target s (e :: es) w'

/-- The events since a client took the lock. -/
def since (i : ι) (es : List (Event ι)) : List (Event ι) :=
  es.takeWhile fun e => ¬e.Takes i

theorem since_cons_of_takes {i : ι} {e : Event ι} (h : e.Takes i) (es : List (Event ι)) :
    since i (e :: es) = [] := by
  simp [since, h]

theorem since_cons {i : ι} {e : Event ι} (h : ¬e.Takes i) (es : List (Event ι)) :
    since i (e :: es) = e :: since i es := by
  simp [since, h]

/-! ## Storage that guards its writes -/

/-- A request about the lock or the document of a target. -/
inductive Request.About (target : String) : Request → Prop
  | acquire : About target (.acquire target)
  | release (lock : Lock) : About target (.release target lock)
  | load : About target (.load target)
  | persist (bytes : ByteArray) (lock : Lock) : About target (.persist target bytes lock)
  | delete (lock : Lock) : About target (.delete target lock)

/-- A request that changes a document for the lock of a token. -/
def Request.WritesFor (token : String) : Request → Prop
  | persist _ _ lock | delete _ lock => lock.token = token
  | _ => False

/-- What a storage does to the lock and the document of a target. `slot` is the token in the place of
the lock record, whether or not the way to it can be followed, and `onRecord` the token that a write
is compared with. -/
structure Guarded (call : Storage σ) (target : String) (slot onRecord : σ → Option String)
    (snapshot : σ → Result ByteArray) : Prop where
  slot_of_onRecord : ∀ {s t}, onRecord s = some t → slot s = some t
  loads : ∀ caller staleAfter s, call caller staleAfter (.load target) s = (snapshot s, s)
  acquires : ∀ caller staleAfter s lock,
    (call caller staleAfter (.acquire target) s).1 = .ok lock →
    (∃ k, lock.token = caller.token k) ∧
      (slot (call caller staleAfter (.acquire target) s).2 = some lock.token →
        onRecord (call caller staleAfter (.acquire target) s).2 = some lock.token)
  persists : ∀ caller staleAfter bytes lock s,
    (call caller staleAfter (.persist target bytes lock) s).1 = .ok () →
    onRecord s = some lock.token
  deletes : ∀ caller staleAfter lock s,
    (call caller staleAfter (.delete target lock) s).1 = .ok () → onRecord s = some lock.token
  slot_kept : ∀ caller staleAfter r s, r.About target →
    slot (call caller staleAfter r s).2 = slot s ∨ slot (call caller staleAfter r s).2 = none ∨
      ∃ k, slot (call caller staleAfter r s).2 = some (caller.token k)
  steady : ∀ caller staleAfter r s t, r.About target → onRecord s = some t →
    slot (call caller staleAfter r s).2 = some t →
    onRecord (call caller staleAfter r s).2 = some t ∧
      (¬r.WritesFor t → snapshot (call caller staleAfter r s).2 = snapshot s)

/-! ## No update is lost -/

/-- What a client that has loaded knows about the loads since it took the lock. -/
def LoadsAre (i : ι) (es : List (Event ι)) : Phase → Prop
  | .loaded _ snapshot => .load i snapshot ∈ since i es ∧
      ∀ other, .load i other ∈ since i es → other = snapshot
  | .holding _ => ∀ snapshot, .load i snapshot ∉ since i es
  | .idle | .written _ => True

/-- As long as the token of a client is in the place of the lock, it is on record, nobody else has
changed the snapshot since the client took the lock, and the snapshot is what the client loaded. -/
structure Undisturbed (slot onRecord : σ → Option String) (snapshot : σ → Result ByteArray)
    (w : World ι σ) (es : List (Event ι)) (i : ι) (lock : Lock) : Prop where
  onRecord : slot w.storage = some lock.token → onRecord w.storage = some lock.token
  alone : slot w.storage = some lock.token → ∀ e ∈ since i es, ∀ j, e.Commits j → j = i
  same : slot w.storage = some lock.token → ∀ found, w.phase i = .loaded lock found →
    snapshot w.storage = found

/-- What every run keeps. -/
structure Invariant (slot onRecord : σ → Option String) (snapshot : σ → Result ByteArray)
    (w : World ι σ) (es : List (Event ι)) : Prop where
  used : ∀ {i lock}, (w.phase i).lock? = some lock → w.used lock.token
  apart : ∀ {i j lock other}, (w.phase i).lock? = some lock → (w.phase j).lock? = some other →
    lock.token = other.token → i = j
  loads : ∀ i, LoadsAre i es (w.phase i)
  held : ∀ {i lock}, (w.phase i).lock? = some lock →
    Undisturbed slot onRecord snapshot w es i lock

variable {call : Storage σ} {target : String} {slot onRecord : σ → Option String}
  {snapshot : σ → Result ByteArray} {w w' : World ι σ} {es : List (Event ι)} {e : Event ι}
  {i j : ι} {caller : Caller} {staleAfter : Nat} {lock : Lock}

theorem invariant_start (s : σ) :
    Invariant slot onRecord snapshot (World.start s : World ι σ) [] where
  used h := by cases h
  apart h := by cases h
  loads _ := trivial
  held h := by cases h

namespace World

theorem phase_next_self (w : World ι σ) (i : ι) (caller : Caller) (p : Phase) (s : σ) :
    (w.next i caller p s).phase i = p :=
  if_pos rfl

theorem phase_next_of_ne (w : World ι σ) (h : j ≠ i) (caller : Caller) (p : Phase) (s : σ) :
    (w.next i caller p s).phase j = w.phase j :=
  if_neg h

end World

/-- A token that stands in the place of the lock was there before, unless the caller has just made
it. -/
theorem Guarded.slot_before (hg : Guarded call target slot onRecord snapshot) {r : Request}
    (hr : r.About target) {s : σ} {t : String} (ht : ∀ k, t ≠ caller.token k)
    (h : slot (call caller staleAfter r s).2 = some t) : slot s = some t := by
  rcases hg.slot_kept caller staleAfter r s hr with hs | hs | ⟨k, hs⟩
  · exact hs ▸ h
  · rw [hs] at h
    cases h
  · rw [hs] at h
    cases h
    exact absurd rfl (ht k)

/-- A call that is not a write for the token of a client disturbs it only by removing that token. -/
theorem Undisturbed.step (hg : Guarded call target slot onRecord snapshot) {r : Request}
    (hr : r.About target) (hold : ∀ k, lock.token ≠ caller.token k)
    (h : Undisturbed slot onRecord snapshot w es j lock) (htakes : ¬e.Takes j) {p : Phase}
    (hcommits : onRecord w.storage = some lock.token → ∀ k, e.Commits k → k = j)
    (hphase : ∀ found, (w.next i caller p (call caller staleAfter r w.storage).2).phase j =
      .loaded lock found →
      (w.phase j = .loaded lock found ∨ snapshot w.storage = found) ∧
        (onRecord w.storage = some lock.token → ¬r.WritesFor lock.token)) :
    Undisturbed slot onRecord snapshot
      (w.next i caller p (call caller staleAfter r w.storage).2) (e :: es) j lock := by
  have hbefore (hs : slot (call caller staleAfter r w.storage).2 = some lock.token) :
      slot w.storage = some lock.token := hg.slot_before hr hold hs
  refine ⟨fun hs => ?_, fun hs => ?_, fun hs found hloaded => ?_⟩
  · exact (hg.steady caller staleAfter r w.storage _ hr (h.onRecord (hbefore hs)) hs).1
  · rw [since_cons htakes]
    exact List.forall_mem_cons.2 ⟨hcommits (h.onRecord (hbefore hs)), h.alone (hbefore hs)⟩
  · have hrecord := h.onRecord (hbefore hs)
    have hsteady := hg.steady caller staleAfter r w.storage _ hr hrecord hs
    obtain ⟨hfound, hwrites⟩ := hphase found hloaded
    refine (hsteady.2 (hwrites hrecord)).trans ?_
    rcases hfound with hfound | hfound
    · exact h.same (hbefore hs) found hfound
    · exact hfound

theorem loadsAre_cons {p : Phase} (htakes : ¬e.Takes j) (hload : ∀ found, e ≠ .load j found) :
    LoadsAre j (e :: es) p ↔ LoadsAre j es p := by
  have hmem (found : Result ByteArray) :
      .load j found ∈ since j (e :: es) ↔ .load j found ∈ since j es := by
    rw [since_cons htakes, List.mem_cons]
    exact ⟨fun h => h.resolve_left (hload found).symm, .inr⟩
  cases p with
  | idle => exact Iff.rfl
  | holding lock => simp only [LoadsAre, hmem]
  | loaded lock found => simp only [LoadsAre, hmem]
  | written lock => exact Iff.rfl

/-- A call of one client leaves the others undisturbed if it writes for no token on record but its
own. -/
theorem Invariant.undisturbed_of_ne (hg : Guarded call target slot onRecord snapshot)
    (h : Invariant slot onRecord snapshot w es) {r : Request} (hr : r.About target)
    (hfresh : w.Fresh caller) {p : Phase} (hclient : e.client = i)
    (hwrites : ∀ t, onRecord w.storage = some t → (r.WritesFor t ∨ ∃ k, e.Commits k) →
      ∃ lock, (w.phase i).lock? = some lock ∧ lock.token = t)
    (hji : j ≠ i) (hj : (w.phase j).lock? = some lock) :
    Undisturbed slot onRecord snapshot
      (w.next i caller p (call caller staleAfter r w.storage).2) (e :: es) j lock := by
  -- Had the call written for this lock, its client would be the one that calls.
  have hother {t : String} (hwrite : onRecord w.storage = some t)
      (ht : r.WritesFor t ∨ ∃ k, e.Commits k) : lock.token ≠ t := by
    obtain ⟨own, hown, htoken⟩ := hwrites t hwrite ht
    exact fun he => hji (h.apart hj hown (he.trans htoken.symm))
  refine (h.held hj).step hg hr (fun k hk => hfresh k (hk ▸ h.used hj))
    (fun ht => hji (ht.client_eq.symm.trans hclient))
    (fun hrecord k hk => absurd rfl (hother hrecord (.inr ⟨k, hk⟩))) fun found hfound => ?_
  rw [World.phase_next_of_ne w hji] at hfound
  exact ⟨.inl hfound, fun hrecord hw => hother hrecord (.inl hw) rfl⟩

/-- A call of one client keeps the invariant if it does for that client, and if it writes for no token
on record but that of the client. -/
theorem Invariant.next (hg : Guarded call target slot onRecord snapshot)
    (h : Invariant slot onRecord snapshot w es) {r : Request} (hr : r.About target)
    (hfresh : w.Fresh caller) {p : Phase} (hclient : e.client = i)
    (hlock : ∀ lock, p.lock? = some lock →
      (w.phase i).lock? = some lock ∨ ∃ k, lock.token = caller.token k)
    (hloads : LoadsAre i (e :: es) p)
    (hheld : ∀ lock, p.lock? = some lock → Undisturbed slot onRecord snapshot
      (w.next i caller p (call caller staleAfter r w.storage).2) (e :: es) i lock)
    (hwrites : ∀ t, onRecord w.storage = some t → (r.WritesFor t ∨ ∃ k, e.Commits k) →
      ∃ lock, (w.phase i).lock? = some lock ∧ lock.token = t) :
    Invariant slot onRecord snapshot
      (w.next i caller p (call caller staleAfter r w.storage).2) (e :: es) := by
  -- The lock of the client is one it had before, or nobody else can have its token.
  have hself {j : ι} {lock other : Lock} (hji : j ≠ i) (hp : p.lock? = some lock)
      (hj : (w.phase j).lock? = some other) : lock.token ≠ other.token := by
    intro htoken
    rcases hlock lock hp with hold | ⟨k, hk⟩
    · exact hji (h.apart hold hj htoken).symm
    · exact hfresh k (hk ▸ htoken ▸ h.used hj)
  refine ⟨?_, ?_, ?_, ?_⟩
  · intro j lock hj
    by_cases hji : j = i
    · subst hji
      rw [World.phase_next_self] at hj
      rcases hlock lock hj with hold | ⟨k, hk⟩
      · exact .inl (h.used hold)
      · exact .inr ⟨k, hk⟩
    · rw [World.phase_next_of_ne w hji] at hj
      exact .inl (h.used hj)
  · intro a b lock other ha hb htoken
    by_cases hai : a = i
    · by_cases hbi : b = i
      · rw [hai, hbi]
      · rw [World.phase_next_of_ne w hbi] at hb
        rw [hai, World.phase_next_self] at ha
        exact absurd htoken (hself hbi ha hb)
    · rw [World.phase_next_of_ne w hai] at ha
      by_cases hbi : b = i
      · rw [hbi, World.phase_next_self] at hb
        exact absurd htoken.symm (hself hai hb ha)
      · rw [World.phase_next_of_ne w hbi] at hb
        exact h.apart ha hb htoken
  · intro j
    by_cases hji : j = i
    · rw [hji, World.phase_next_self]
      exact hloads
    · rw [World.phase_next_of_ne w hji]
      have htakes : ¬e.Takes j := fun ht => hji (ht.client_eq.symm.trans hclient)
      refine (loadsAre_cons htakes fun found he => hji ?_).2 (h.loads j)
      rw [he] at hclient
      exact hclient
  · intro j lock hj
    by_cases hji : j = i
    · subst hji
      rw [World.phase_next_self] at hj
      exact hheld lock hj
    · rw [World.phase_next_of_ne w hji] at hj
      exact h.undisturbed_of_ne hg hr hfresh hclient hwrites hji hj

/-- The call of a client that writes, with its reply and what is found before. -/
theorem Invariant.write (hg : Guarded call target slot onRecord snapshot)
    (h : Invariant slot onRecord snapshot w es) {r : Request} (hr : r.About target)
    (hfresh : w.Fresh caller) (hlock : (w.phase i).lock? = some lock)
    (hfor : ∀ t, r.WritesFor t → lock.token = t) {found : Result ByteArray} {reply : Result Unit}
    (hok : reply = .ok () → onRecord w.storage = some lock.token) :
    Invariant slot onRecord snapshot
      (w.next i caller (.written lock) (call caller staleAfter r w.storage).2)
      (.write i found reply :: es) := by
  refine h.next hg hr hfresh rfl (fun other hp => ?_) trivial (fun other hp => ?_) fun t ht hw => ?_
  · cases hp
    exact .inl hlock
  · cases hp
    have hold (k : Nat) (hk : lock.token = caller.token k) : False := hfresh k (hk ▸ h.used hlock)
    refine (h.held hlock).step hg hr hold Event.not_takes_write (fun _ k hk => hk.client_eq.symm)
      fun other hphase => ?_
    rw [World.phase_next_self] at hphase
    cases hphase
  · refine ⟨lock, hlock, ?_⟩
    rcases hw with hw | ⟨k, hk⟩
    · exact hfor t hw
    · cases reply with
      | ok u => exact Option.some.inj ((hok rfl).symm.trans ht)
      | error fault => cases hk

/-- Nothing has happened since a client has taken the lock. -/
theorem Invariant.acquire (hg : Guarded call target slot onRecord snapshot)
    (h : Invariant slot onRecord snapshot w es) (hfresh : w.Fresh caller) {reply : Result Lock}
    (hreply : (call caller staleAfter (.acquire target) w.storage).1 = reply) :
    Invariant slot onRecord snapshot
      (w.next i caller (.taken reply) (call caller staleAfter (.acquire target) w.storage).2)
      (.acquire i reply :: es) := by
  have hwrites (t : String) (_ : onRecord w.storage = some t)
      (hw : Request.WritesFor t (.acquire target) ∨ ∃ k, (Event.acquire i reply).Commits k) :
      ∃ lock, (w.phase i).lock? = some lock ∧ lock.token = t := by
    rcases hw with hw | ⟨k, hk⟩
    · cases hw
    · cases hk
  cases reply with
  | error fault =>
    exact h.next hg .acquire hfresh rfl (fun lock hp => by cases hp) trivial
      (fun lock hp => by cases hp) hwrites
  | ok taken =>
    have htakes : (Event.acquire i (.ok taken)).Takes i := rfl
    obtain ⟨hnew, hrecord⟩ := hg.acquires caller staleAfter w.storage taken hreply
    refine h.next hg .acquire hfresh rfl (fun lock hp => ?_) (fun found hfound => ?_)
      (fun lock hp => ?_) hwrites
    · cases hp
      exact .inr hnew
    · rw [since_cons_of_takes htakes] at hfound
      cases hfound
    · cases hp
      refine ⟨hrecord, fun _ e he => ?_, fun _ found hphase => ?_⟩
      · rw [since_cons_of_takes htakes] at he
        cases he
      · rw [World.phase_next_self] at hphase
        cases hphase

/-- What a client loads is the snapshot, and remains so as long as its token is in its place. -/
theorem Invariant.load (hg : Guarded call target slot onRecord snapshot)
    (h : Invariant slot onRecord snapshot w es) (hfresh : w.Fresh caller)
    (hphase : w.phase i = .holding lock) {reply : Result ByteArray}
    (hreply : reply = snapshot w.storage) :
    Invariant slot onRecord snapshot
      (w.next i caller (.loaded lock reply) (call caller staleAfter (.load target) w.storage).2)
      (.load i reply :: es) := by
  have hlock : (w.phase i).lock? = some lock := by rw [hphase]; rfl
  have hnone : ∀ found, .load i found ∉ since i es := by
    have hloads := h.loads i
    rw [hphase] at hloads
    exact hloads
  refine h.next hg .load hfresh rfl (fun other hp => ?_) ?_ (fun other hp => ?_) ?_
  · cases hp
    exact .inl hlock
  · rw [LoadsAre, since_cons Event.not_takes_load]
    refine ⟨List.mem_cons_self, fun found hfound => ?_⟩
    rcases List.mem_cons.1 hfound with he | hfound
    · cases he
      rfl
    · exact absurd hfound (hnone found)
  · cases hp
    have hold (k : Nat) (hk : lock.token = caller.token k) : False := hfresh k (hk ▸ h.used hlock)
    refine (h.held hlock).step hg .load hold Event.not_takes_load (fun _ k hk => hk.elim)
      fun found hloaded => ?_
    rw [World.phase_next_self] at hloaded
    cases hloaded
    exact ⟨.inr hreply.symm, fun _ hw => hw⟩
  · rintro t - (hw | ⟨k, hk⟩)
    · cases hw
    · cases hk

theorem Invariant.step (hg : Guarded call target slot onRecord snapshot)
    (h : Invariant slot onRecord snapshot w es) (hs : ClientStep call target w e w') :
    Invariant slot onRecord snapshot w' (e :: es) := by
  cases hs with
  | acquire caller staleAfter fresh idle => exact h.acquire hg fresh rfl
  | load caller staleAfter fresh holding =>
    exact h.load hg fresh holding (by rw [hg.loads])
  | @persist i lock found caller staleAfter bytes fresh loaded =>
    have hlock : (w.phase i).lock? = some lock := by rw [loaded]; rfl
    exact h.write hg (.persist bytes lock) fresh hlock (fun t ht => ht)
      (hg.persists caller staleAfter bytes lock w.storage)
  | @delete i lock found caller staleAfter fresh loaded =>
    have hlock : (w.phase i).lock? = some lock := by rw [loaded]; rfl
    exact h.write hg (.delete lock) fresh hlock (fun t ht => ht)
      (hg.deletes caller staleAfter lock w.storage)
  | @release i lock caller staleAfter fresh held =>
    refine h.next hg (.release lock) fresh rfl (fun lock hp => by cases hp) trivial
      (fun lock hp => by cases hp) ?_
    rintro t - (hw | ⟨k, hk⟩)
    · cases hw
    · cases hk

theorem ClientRun.invariant (hg : Guarded call target slot onRecord snapshot) {s : σ}
    (h : ClientRun call target s es w) : Invariant slot onRecord snapshot w es := by
  induction h with
  | start => exact invariant_start s
  | step run next ih => exact ih.step hg next

/-- No two clients' tokens are on record; and when a client has just written, nobody else has written
since it took the lock, and what it loaded since then is what it has replaced. -/
structure NoLostUpdates (onRecord : σ → Option String) (es : List (Event ι)) (w : World ι σ) :
    Prop where
  oneToken : ∀ {i j lock other}, (w.phase i).lock? = some lock → (w.phase j).lock? = some other →
    onRecord w.storage = some lock.token → onRecord w.storage = some other.token → i = j
  alone : ∀ {i found older}, es = .write i found (.ok ()) :: older →
    ∀ e ∈ since i older, ∀ j, e.Commits j → j = i
  current : ∀ {i found older}, es = .write i found (.ok ()) :: older →
    .load i found ∈ since i older ∧ ∀ loaded, .load i loaded ∈ since i older → loaded = found

/-- A client that writes with success holds the token on record and replaces what it has loaded. -/
theorem ClientStep.of_commit (hg : Guarded call target slot onRecord snapshot)
    {found : Result ByteArray} (h : ClientStep call target w (.write i found (.ok ())) w') :
    ∃ lock loaded, w.phase i = .loaded lock loaded ∧ onRecord w.storage = some lock.token ∧
      found = snapshot w.storage := by
  generalize he : Event.write i found (.ok ()) = e at h
  cases h with
  | acquire caller staleAfter fresh idle => cases he
  | load caller staleAfter fresh holding => cases he
  | @persist j lock loaded caller staleAfter bytes fresh hloaded =>
    injection he with hi hfound hreply
    subst hi
    refine ⟨lock, loaded, hloaded, ?_, ?_⟩
    · exact hg.persists caller staleAfter bytes lock w.storage hreply.symm
    · rw [hfound, hg.loads]
  | @delete j lock loaded caller staleAfter fresh hloaded =>
    injection he with hi hfound hreply
    subst hi
    refine ⟨lock, loaded, hloaded, ?_, ?_⟩
    · exact hg.deletes caller staleAfter lock w.storage hreply.symm
    · rw [hfound, hg.loads]
  | release caller staleAfter fresh held => cases he

/-- Clients of a storage that guards its writes lose no update. -/
theorem ClientRun.noLostUpdates (hg : Guarded call target slot onRecord snapshot) {s : σ}
    (h : ClientRun call target s es w) : NoLostUpdates onRecord es w := by
  have hlast {i : ι} {found : Result ByteArray} {older : List (Event ι)}
      (he : es = .write i found (.ok ()) :: older) :
      (∀ e ∈ since i older, ∀ j, e.Commits j → j = i) ∧ .load i found ∈ since i older ∧
        ∀ loaded, .load i loaded ∈ since i older → loaded = found := by
    subst he
    cases h with
    | step run next =>
      have hinv := run.invariant hg
      obtain ⟨lock, loaded, hphase, hrecord, rfl⟩ := next.of_commit hg
      have hlock : (Phase.loaded lock loaded).lock? = some lock := rfl
      have hheld := hinv.held (hphase ▸ hlock)
      have hslot := hg.slot_of_onRecord hrecord
      have hloads := hinv.loads i
      rw [hphase] at hloads
      rw [hheld.same hslot loaded hphase]
      exact ⟨hheld.alone hslot, hloads⟩
  refine ⟨fun hi hj hlock hother => ?_, fun he => (hlast he).1, fun he => (hlast he).2⟩
  exact (h.invariant hg).apart hi hj (Option.some.inj (hlock.symm.trans hother))

end ClusterLedger.Backend
