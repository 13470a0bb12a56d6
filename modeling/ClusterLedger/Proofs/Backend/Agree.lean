import ClusterLedger.Proofs.Backend.FolderLedger
import ClusterLedger.Proofs.Backend.ObjectsLedger
import ClusterLedger.Proofs.Lock.Token

/-!
# Storages that agree

Two storages that keep ledgers are given the same commands, one after the other and at the same
times. Their locks have other tokens, but the lock on record is the same one by its number, and so
every command has the same outcome.
-/
namespace ClusterLedger

/-- The kinds of errors. -/
inductive Error.Kind where
  | document
  | missing
  | collision
  | applyFailed
  | unsaved
  | lock
  | invalidTarget
  | invalidInput
  | store
  | http
  | disk
  | cleanup
  deriving DecidableEq, Repr

def Error.kind : Error → Kind
  | document _ => .document
  | missing _ => .missing
  | collision _ => .collision
  | applyFailed _ => .applyFailed
  | unsaved _ _ => .unsaved
  | lock _ => .lock
  | invalidTarget _ => .invalidTarget
  | invalidInput _ => .invalidInput
  | store _ => .store
  | http => .http
  | disk _ => .disk
  | cleanup _ _ => .cleanup

namespace Backend

/-! ## Commands -/

/-- What a user of a storage does. A lock is told by its number among those that were acquired,
whatever has become of it and for whatever target. -/
inductive Command where
  | acquire (target : String) (staleAfter : Nat)
  | release (target : String) (lock : Nat)
  | load (target : String)
  | persist (target : String) (bytes : ByteArray) (lock : Nat)
  | delete (target : String) (lock : Nat)
  | list

namespace Command

/-- The request that a command makes, once its lock has been acquired. -/
def request? (acquired : List Lock) : Command → Option Request
  | acquire target _ => some (.acquire target)
  | release target i => acquired[i]?.map (.release target)
  | load target => some (.load target)
  | persist target bytes i => acquired[i]?.map (.persist target bytes)
  | delete target i => acquired[i]?.map (.delete target)
  | list => some .list

def staleAfter : Command → Nat
  | acquire _ staleAfter => staleAfter
  | _ => 0

/-- The target that a command is about, if it names one. -/
def target? : Command → Option String
  | acquire target _ | release target _ | load target | persist target _ _ | delete target _ =>
    some target
  | list => none

end Command

/-- What is seen of a reply. -/
inductive Outcome where
  | acquired
  | done
  | loaded (bytes : ByteArray)
  | listed (targets : List String)
  | failed (kind : Error.Kind)
  deriving DecidableEq

/-- What is seen of the reply to a request. -/
def outcome : (r : Request) → Result r.Yield → Outcome
  | .acquire _, .ok _ => .acquired
  | .load _, .ok bytes => .loaded bytes
  | .list, .ok targets => .listed targets
  | .release _ _, .ok _ | .persist _ _ _, .ok _ | .delete _ _, .ok _ => .done
  | _, .error e => .failed e.kind

/-- The lock that a reply gives out. -/
def givenOut : (r : Request) → Result r.Yield → List Lock
  | .acquire _, .ok lock => [lock]
  | _, _ => []

/-- A storage in use, with the locks that have been acquired. -/
structure Session (σ : Type) where
  storage : σ
  acquired : List Lock

/-- Carries out a command; one for a lock that has not been acquired is left out. -/
def Session.carryOut {σ : Type} (call : Storage σ) (caller : Caller) (c : Command) (s : Session σ) :
    Option Outcome × Session σ :=
  match c.request? s.acquired with
  | none => (none, s)
  | some r =>
    let reply := call caller c.staleAfter r s.storage
    (some (outcome r reply.1), ⟨reply.2, s.acquired ++ givenOut r reply.1⟩)

/-- The outcomes of commands; the `n`-th one is carried out for the `n`-th caller. -/
def Session.outcomes {σ : Type} (call : Storage σ) (callers : Nat → Caller) (n : Nat) :
    List Command → Session σ → List (Option Outcome)
  | [], _ => []
  | c :: cs, s =>
    let step := s.carryOut call (callers n) c
    step.1 :: step.2.outcomes call callers (n + 1) cs

/-! ## Acquired locks -/

/-- No two records of all callers have one token. -/
def Distinct (callers : Nat → Caller) : Prop :=
  ∀ n k m j, (callers n).token k = (callers m).token j → n = m ∧ k = j

/-- The locks of the same number in two sessions. -/
abbrev Pairs := List (Lock × Lock)

/-- On one side the token tells which pair it is. The locks are of callers before the `n`-th. -/
structure Told (side : Lock × Lock → Lock) (callers : Nat → Caller) (n : Nat) (pairs : Pairs) :
    Prop where
  unique : ∀ p ∈ pairs, ∀ q ∈ pairs, (side p).token = (side q).token → p = q
  earlier : ∀ p ∈ pairs, ∃ m k, m < n ∧ (side p).token = (callers m).token k

section Told

variable {side : Lock × Lock → Lock} {callers : Nat → Caller} {n : Nat} {pairs : Pairs}

theorem told_nil : Told side callers n [] :=
  ⟨nofun, nofun⟩

theorem Told.later (h : Told side callers n pairs) : Told side callers (n + 1) pairs := by
  refine ⟨h.unique, fun p hp => ?_⟩
  obtain ⟨m, k, hm, htoken⟩ := h.earlier p hp
  exact ⟨m, k, Nat.lt_succ_of_lt hm, htoken⟩

/-- A lock of the next caller is told from all before. -/
theorem Told.acquire (h : Told side callers n pairs) (hdistinct : Distinct callers)
    {new : Lock × Lock} {k : Nat} (hnew : side new = (callers n).lock k) :
    Told side callers (n + 1) (pairs ++ [new]) := by
  have htoken : (side new).token = (callers n).token k := congrArg Lock.token hnew
  have hfresh : ∀ p ∈ pairs, (side p).token ≠ (side new).token := by
    intro p hp he
    obtain ⟨m, j, hm, hp⟩ := h.earlier p hp
    rw [hp, htoken] at he
    exact Nat.ne_of_lt hm (hdistinct m j n k he).1
  constructor
  · intro p hp q hq he
    rcases List.mem_append.1 hp with hp | hp
    · rcases List.mem_append.1 hq with hq | hq
      · exact h.unique p hp q hq he
      · rw [List.mem_singleton.1 hq] at he
        exact absurd he (hfresh p hp)
    · rcases List.mem_append.1 hq with hq | hq
      · rw [List.mem_singleton.1 hp] at he
        exact absurd he.symm (hfresh q hq)
      · rw [List.mem_singleton.1 hp, List.mem_singleton.1 hq]
  · intro p hp
    rcases List.mem_append.1 hp with hp | hp
    · exact h.later.earlier p hp
    · rw [List.mem_singleton.1 hp]
      exact ⟨n, k, Nat.lt_succ_self n, htoken⟩

end Told

/-! ## Ledgers that agree -/

/-- Two ledgers with the same documents and, by their numbers, the same locks. -/
structure Twins (callers callers' : Nat → Caller) (n : Nat) (pairs : Pairs) (l l' : Ledger) :
    Prop where
  documents : l'.documents = l.documents
  locks : ∀ target, l.locks.get? target = none ∧ l'.locks.get? target = none ∨
    ∃ p ∈ pairs, l.locks.get? target = some p.1 ∧ l'.locks.get? target = some p.2
  times : ∀ p ∈ pairs, p.2.acquiredAt = p.1.acquiredAt
  told : Told Prod.fst callers n pairs
  told' : Told Prod.snd callers' n pairs

/-- Replies of which the same is seen, and ledgers that agree after them. -/
def Alike (callers callers' : Nat → Caller) (n : Nat) (pairs : Pairs) (r r' : Request)
    (reply : Result r.Yield × Ledger) (reply' : Result r'.Yield × Ledger) : Prop :=
  outcome r reply.1 = outcome r' reply'.1 ∧ ∃ more : Pairs,
    givenOut r reply.1 = more.map Prod.fst ∧ givenOut r' reply'.1 = more.map Prod.snd ∧
      Twins callers callers' n (pairs ++ more) reply.2 reply'.2

section Twins

variable {callers callers' : Nat → Caller} {n : Nat} {pairs : Pairs} {l l' k k' : Ledger}
  {target : String} {m m' : Manner}

theorem twins_empty (callers callers' : Nat → Caller) :
    Twins callers callers' 0 [] .empty .empty :=
  ⟨rfl, fun _ => .inl ⟨rfl, rfl⟩, nofun, told_nil, told_nil⟩

theorem outcome_error (r : Request) (e : Error) : outcome r (.error e) = .failed e.kind := by
  cases r <;> rfl

theorem givenOut_error (r : Request) (e : Error) : givenOut r (.error e) = [] := by
  cases r <;> rfl

theorem Twins.later (h : Twins callers callers' n pairs l l') :
    Twins callers callers' (n + 1) pairs l l' :=
  { h with told := h.told.later, told' := h.told'.later }

/-- Nothing was given out. -/
theorem Twins.alike (h : Twins callers callers' n pairs k k') {r r' : Request}
    {reply : Result r.Yield} {reply' : Result r'.Yield}
    (houtcome : outcome r reply = outcome r' reply') (hnone : givenOut r reply = [])
    (hnone' : givenOut r' reply' = []) :
    Alike callers callers' n pairs r r' (reply, k) (reply', k') := by
  refine ⟨houtcome, [], hnone, hnone', ?_⟩
  rw [List.append_nil]
  exact h

theorem Twins.alike_error (h : Twins callers callers' n pairs l l') {r r' : Request} {e e' : Error}
    (hkind : e.kind = e'.kind) :
    Alike callers callers' (n + 1) pairs r r' (.error e, l) (.error e', l') :=
  h.later.alike (by rw [outcome_error, outcome_error, hkind]) (givenOut_error r e)
    (givenOut_error r' e')

/-- The new locks have the same number. -/
theorem Twins.hold (h : Twins callers callers' n pairs l l') (hdistinct : Distinct callers)
    (hdistinct' : Distinct callers') (hnow : (callers' n).now = (callers n).now) (target : String)
    (i j : Nat) :
    Twins callers callers' (n + 1) (pairs ++ [((callers n).lock i, (callers' n).lock j)])
      (l.hold target ((callers n).lock i)) (l'.hold target ((callers' n).lock j)) := by
  refine ⟨h.documents, fun t => ?_, fun p hp => ?_, h.told.acquire hdistinct rfl,
    h.told'.acquire hdistinct' rfl⟩
  · simp only [Ledger.locks_hold, Dict.get?_insert]
    split
    · exact .inr ⟨_, List.mem_append_right _ (List.mem_singleton_self _), rfl, rfl⟩
    · refine (h.locks t).imp_right ?_
      rintro ⟨p, hp, hget⟩
      exact ⟨p, List.mem_append_left _ hp, hget⟩
  · rcases List.mem_append.1 hp with hp | hp
    · exact h.times p hp
    · rw [List.mem_singleton.1 hp]
      exact hnow

theorem Twins.free (h : Twins callers callers' n pairs l l') (target : String) :
    Twins callers callers' n pairs (l.free target) (l'.free target) := by
  refine { h with locks := fun t => ?_ }
  simp only [Ledger.locks_free, Dict.get?_erase]
  split
  · exact .inl ⟨rfl, rfl⟩
  · exact h.locks t

theorem Twins.put (h : Twins callers callers' n pairs l l') (target : String) (bytes : ByteArray) :
    Twins callers callers' n pairs (l.put target bytes) (l'.put target bytes) :=
  { h with documents := by rw [Ledger.documents_put, Ledger.documents_put, h.documents] }

theorem Twins.drop (h : Twins callers callers' n pairs l l') (target : String) :
    Twins callers callers' n pairs (l.drop target) (l'.drop target) :=
  { h with documents := by rw [Ledger.documents_drop, Ledger.documents_drop, h.documents] }

/-- A lock is acquired in both ledgers, or in neither. -/
theorem Twins.acquire (h : Twins callers callers' n pairs l l') (hdistinct : Distinct callers)
    (hdistinct' : Distinct callers') (hnow : (callers' n).now = (callers n).now) (target : String)
    (staleAfter i j : Nat) :
    Alike callers callers' (n + 1) pairs (.acquire target) (.acquire target)
      (l.acquire i (callers n) staleAfter target)
      (l'.acquire j (callers' n) staleAfter target) := by
  rw [Ledger.acquire, Ledger.acquire]
  rcases h.locks target with ⟨hnone, hnone'⟩ | ⟨p, hp, hsome, hsome'⟩
  · rw [hnone, hnone']
    exact ⟨rfl, [_], rfl, rfl, h.hold hdistinct hdistinct' hnow target 0 0⟩
  · have hstale :
        p.2.isStale (callers' n).now staleAfter = p.1.isStale (callers n).now staleAfter := by
      rw [Lock.isStale, Lock.isStale, h.times p hp, hnow]
    rw [hsome, hsome']
    simp only [hstale]
    split
    · exact ⟨rfl, [_], rfl, rfl, h.hold hdistinct hdistinct' hnow target i j⟩
    · exact h.alike_error rfl

/-- The locks of one number are both on record, or neither is. -/
theorem Twins.verify (h : Twins callers callers' n pairs l l') {q : Lock × Lock} (hq : q ∈ pairs)
    (target : String) : verify target q.1 (l.locks.get? target) = .ok () ∧
        verify target q.2 (l'.locks.get? target) = .ok () ∨
      ∃ e e', verify target q.1 (l.locks.get? target) = .error e ∧
        verify target q.2 (l'.locks.get? target) = .error e' ∧ e.kind = e'.kind := by
  rcases h.locks target with ⟨hnone, hnone'⟩ | ⟨p, hp, hsome, hsome'⟩
  · rw [hnone, hnone']
    exact .inr ⟨_, _, rfl, rfl, rfl⟩
  · rw [hsome, hsome', Backend.verify, Backend.verify]
    by_cases hpq : p = q
    · subst hpq
      exact .inl ⟨if_pos rfl, if_pos rfl⟩
    · have htoken : p.1.token ≠ q.1.token := fun he => hpq (h.told.unique p hp q hq he)
      have htoken' : p.2.token ≠ q.2.token := fun he => hpq (h.told'.unique p hp q hq he)
      exact .inr ⟨_, _, if_neg fun he => htoken (Option.some.inj he),
        if_neg fun he => htoken' (Option.some.inj he), rfl⟩

/-- A change is made in both ledgers for the locks of one number, or refused in both. -/
theorem Twins.change {P : Result Unit × Ledger → Result Unit × Ledger → Prop}
    (h : Twins callers callers' n pairs l l') {q : Lock × Lock} (hq : q ∈ pairs)
    (target : String) (hmade : P (.ok (), k) (.ok (), k'))
    (hrefused : ∀ e e', e.kind = e'.kind → P (.error e, l) (.error e', l')) :
    P (l.change target q.1 k) (l'.change target q.2 k') := by
  rw [Ledger.change, Ledger.change]
  rcases h.verify hq target with ⟨hok, hok'⟩ | ⟨e, e', herror, herror', hkind⟩
  · rw [hok, hok']
    exact hmade
  · rw [herror, herror']
    exact hrefused e e' hkind

theorem Twins.load (h : Twins callers callers' n pairs l l') {absent absent' : String → Error}
    (habsent : (absent target).kind = (absent' target).kind) :
    Alike callers callers' (n + 1) pairs (.load target) (.load target) (l.load absent target, l)
      (l'.load absent' target, l') := by
  rw [Ledger.load, Ledger.load, h.documents]
  cases l.documents.get? target with
  | none => exact h.alike_error habsent
  | some bytes => exact h.later.alike rfl rfl rfl

/-! ## Commands for ledgers -/

/-- A lock on record with the token of an acquired lock is that lock. -/
theorem Told.genuine {side : Lock × Lock → Lock} (h : Told side callers n pairs)
    (hlocks : ∀ t, l.locks.get? t = none ∨ ∃ p ∈ pairs, l.locks.get? t = some (side p))
    {q : Lock × Lock} (hq : q ∈ pairs) {r : Request} (hr : r.lock? = some (target, side q)) :
    l.Genuine r := by
  intro t lock current hlock hget htoken
  obtain ⟨rfl, rfl⟩ := Prod.mk.inj (Option.some.inj (hr.symm.trans hlock))
  rcases hlocks target with hnone | ⟨p, hp, hsome⟩
  · rw [hnone] at hget
    cases hget
  · obtain rfl := Option.some.inj (hsome.symm.trans hget)
    rw [h.unique p hp q hq htoken]

theorem Twins.genuine (h : Twins callers callers' n pairs l l') {q : Lock × Lock} (hq : q ∈ pairs)
    {r : Request} (hr : r.lock? = some (target, q.1)) : l.Genuine r :=
  h.told.genuine (fun t => (h.locks t).imp And.left fun ⟨p, hp, hget, _⟩ => ⟨p, hp, hget⟩) hq hr

theorem Twins.genuine' (h : Twins callers callers' n pairs l l') {q : Lock × Lock} (hq : q ∈ pairs)
    {r : Request} (hr : r.lock? = some (target, q.2)) : l'.Genuine r :=
  h.told'.genuine (fun t => (h.locks t).imp And.right fun ⟨p, hp, _, hget⟩ => ⟨p, hp, hget⟩) hq hr

theorem genuine_of_lock?_eq_none {r : Request} (h : r.lock? = none) (l : Ledger) : l.Genuine r := by
  intro t lock current hlock
  rw [h] at hlock
  cases hlock

/-- A name that is no target is refused by both. -/
theorem Twins.answer (h : Twins callers callers' n pairs l l') {r r' : Request}
    {caller caller' : Caller} {staleAfter : Nat} (htarget : r'.target? = r.target?)
    (hperform : (∀ t, r.target? = some t → Target.isValid t) →
      Alike callers callers' (n + 1) pairs r r' (Ledger.perform m caller staleAfter r l)
        (Ledger.perform m' caller' staleAfter r' l')) :
    Alike callers callers' (n + 1) pairs r r' (Ledger.answer m caller staleAfter r l)
      (Ledger.answer m' caller' staleAfter r' l') := by
  by_cases hvalid : ∀ t, r.target? = some t → Target.isValid t
  · rw [Ledger.answer_of_valid l hvalid, Ledger.answer_of_valid l' (htarget ▸ hvalid)]
    exact hperform hvalid
  · simp only [not_forall] at hvalid
    obtain ⟨t, ht, hvalid⟩ := hvalid
    rw [Ledger.answer_of_invalid l ht hvalid,
      Ledger.answer_of_invalid l' (htarget.trans ht) hvalid]
    exact h.alike_error rfl

theorem request?_target {acquired : List Lock} {c : Command} {r : Request}
    (h : c.request? acquired = some r) : r.target? = c.target? := by
  cases c with
  | acquire target staleAfter => cases h; rfl
  | load target => cases h; rfl
  | list => cases h; rfl
  | release target i => obtain ⟨lock, -, rfl⟩ := Option.map_eq_some_iff.1 h; rfl
  | persist target bytes i => obtain ⟨lock, -, rfl⟩ := Option.map_eq_some_iff.1 h; rfl
  | delete target i => obtain ⟨lock, -, rfl⟩ := Option.map_eq_some_iff.1 h; rfl

/-- What two ledgers answer to a command, if it makes a request. -/
def Steps (m m' : Manner) (callers callers' : Nat → Caller) (n : Nat) (pairs : Pairs)
    (l l' : Ledger) (c : Command) : Option Request → Option Request → Prop
  | none, none => True
  | some r, some r' => l.Genuine r ∧ l'.Genuine r' ∧
    Alike callers callers' (n + 1) pairs r r' (Ledger.answer m (callers n) c.staleAfter r l)
      (Ledger.answer m' (callers' n) c.staleAfter r' l')
  | _, _ => False

/-- A command for a lock makes a request in both sessions or in neither, as they have as many
locks. -/
theorem Twins.steps_lock (h : Twins callers callers' n pairs l l') {c : Command}
    {f : Lock → Request} (i : Nat) (hf : ∀ lock, (f lock).lock? = some (target, lock))
    (htarget : ∀ lock lock', (f lock').target? = (f lock).target?)
    (hperform : ∀ q ∈ pairs, Alike callers callers' (n + 1) pairs (f q.1) (f q.2)
      (Ledger.perform m (callers n) c.staleAfter (f q.1) l)
      (Ledger.perform m' (callers' n) c.staleAfter (f q.2) l')) :
    Steps m m' callers callers' n pairs l l' c ((pairs.map Prod.fst)[i]?.map f)
      ((pairs.map Prod.snd)[i]?.map f) := by
  rw [List.getElem?_map, List.getElem?_map]
  cases hi : pairs[i]? with
  | none => exact trivial
  | some q =>
    have hq := List.mem_of_getElem? hi
    exact ⟨h.genuine hq (hf q.1), h.genuine' hq (hf q.2),
      h.answer (htarget q.1 q.2) fun _ => hperform q hq⟩

theorem Twins.steps (h : Twins callers callers' n pairs l l') (hdistinct : Distinct callers)
    (hdistinct' : Distinct callers') (hnow : (callers' n).now = (callers n).now) (c : Command)
    (habsent : ∀ t, c.target? = some t → Target.isValid t →
      (m.absent t).kind = (m'.absent t).kind) :
    Steps m m' callers callers' n pairs l l' c (c.request? (pairs.map Prod.fst))
      (c.request? (pairs.map Prod.snd)) := by
  cases c with
  | acquire target staleAfter =>
    exact ⟨genuine_of_lock?_eq_none rfl l, genuine_of_lock?_eq_none rfl l', h.answer rfl fun _ =>
      h.acquire hdistinct hdistinct' hnow target staleAfter m.second m'.second⟩
  | load target =>
    exact ⟨genuine_of_lock?_eq_none rfl l, genuine_of_lock?_eq_none rfl l',
      h.answer rfl fun hvalid => h.load (habsent target rfl (hvalid target rfl))⟩
  | list =>
    refine ⟨genuine_of_lock?_eq_none rfl l, genuine_of_lock?_eq_none rfl l',
      h.answer rfl fun _ => ?_⟩
    rw [Ledger.perform, Ledger.perform, h.documents]
    exact h.later.alike rfl rfl rfl
  | release target i =>
    refine h.steps_lock i (fun _ => rfl) (fun _ _ => rfl) fun q hq => ?_
    exact h.change (P := Alike callers callers' (n + 1) pairs (.release target q.1)
        (.release target q.2))
      hq target ((h.later.free target).alike rfl rfl rfl) fun _ _ hkind => h.alike_error hkind
  | persist target bytes i =>
    refine h.steps_lock i (fun _ => rfl) (fun _ _ => rfl) fun q hq => ?_
    exact h.change (P := Alike callers callers' (n + 1) pairs (.persist target bytes q.1)
        (.persist target bytes q.2))
      hq target ((h.later.put target bytes).alike rfl rfl rfl) fun _ _ hkind => h.alike_error hkind
  | delete target i =>
    refine h.steps_lock i (fun _ => rfl) (fun _ _ => rfl) fun q hq => ?_
    exact h.change (P := Alike callers callers' (n + 1) pairs (.delete target q.1)
        (.delete target q.2))
      hq target ((h.later.drop target).alike rfl rfl rfl) fun _ _ hkind => h.alike_error hkind

end Twins

/-! ## Sessions -/

/-- Two storages can be given a command: their callers read the same time, the request is admitted,
and what they would say of a missing document is of one kind. -/
structure Ready (m m' : Manner) (admits admits' : Caller → Request → Prop) (caller caller' : Caller)
    (c : Command) : Prop where
  now : caller'.now = caller.now
  shows : caller.now.Shows
  admits : ∀ acquired r, c.request? acquired = some r → admits caller r
  admits' : ∀ acquired r, c.request? acquired = some r → admits' caller' r
  absent : ∀ target, c.target? = some target → Target.isValid target →
    (m.absent target).kind = (m'.absent target).kind

section

variable {σ τ : Type} {call : Storage σ} {call' : Storage τ} {m m' : Manner}
  {holds : σ → Ledger → Prop} {holds' : τ → Ledger → Prop}
  {admits admits' : Caller → Request → Prop} {callers callers' : Nat → Caller}

/-- From ledgers that agree on, the outcomes of commands are the same. -/
theorem outcomes_of_twins (hk : Keeps call m holds admits) (hk' : Keeps call' m' holds' admits')
    (hdistinct : Distinct callers) (hdistinct' : Distinct callers') {cs : List Command} {n : Nat}
    (hready : ∀ i c, cs[i]? = some c →
      Ready m m' admits admits' (callers (n + i)) (callers' (n + i)) c)
    {s : σ} {s' : τ} {l l' : Ledger} {pairs : Pairs} (h : Twins callers callers' n pairs l l')
    (hs : holds s l) (hs' : holds' s' l') :
    Session.outcomes call callers n cs ⟨s, pairs.map Prod.fst⟩ =
      Session.outcomes call' callers' n cs ⟨s', pairs.map Prod.snd⟩ := by
  induction cs generalizing n s s' l l' pairs with
  | nil => rfl
  | cons c cs ih =>
    have hc : Ready m m' admits admits' (callers n) (callers' n) c := hready 0 c rfl
    have hrest : ∀ i c, cs[i]? = some c →
        Ready m m' admits admits' (callers (n + 1 + i)) (callers' (n + 1 + i)) c := by
      intro i c hi
      rw [Nat.add_assoc, Nat.add_comm 1 i]
      exact hready (i + 1) c hi
    have hsteps := h.steps hdistinct hdistinct' hc.now c hc.absent
    rw [Session.outcomes, Session.outcomes, Session.carryOut, Session.carryOut]
    cases hr : c.request? (pairs.map Prod.fst) with
    | none =>
      cases hr' : c.request? (pairs.map Prod.snd) with
      | none => exact congrArg (none :: ·) (ih hrest h.later hs hs')
      | some r' =>
        rw [hr, hr'] at hsteps
        exact hsteps.elim
    | some r =>
      cases hr' : c.request? (pairs.map Prod.snd) with
      | none =>
        rw [hr, hr'] at hsteps
        exact hsteps.elim
      | some r' =>
        rw [hr, hr'] at hsteps
        obtain ⟨hgenuine, hgenuine', houtcome, more, hgiven, hgiven', htwins⟩ := hsteps
        obtain ⟨hreply, hholds⟩ :=
          hk.answers c.staleAfter hs hc.shows (hc.admits _ r hr) hgenuine
        obtain ⟨hreply', hholds'⟩ :=
          hk'.answers c.staleAfter hs' (hc.now ▸ hc.shows) (hc.admits' _ r' hr') hgenuine'
        simp only [hreply, hreply', houtcome, hgiven, hgiven', ← List.map_append]
        exact congrArg (_ :: ·) (ih hrest htwins hholds hholds')

end

/-- The disk admits the targets that commands name, with all files that a call makes there. -/
def AdmitsAll (root : Folder) (callers : Nat → Caller) (cs : List Command) : Prop :=
  ∀ i c target, cs[i]? = some c → c.target? = some target → Target.isValid target →
    root.Admits (callers i) target

/-- Commands have the same outcomes in an empty folder, one with a name, and in an empty store. -/
theorem outcomes_folder_eq_objects (root : Folder) {disk : Disk.Entry}
    (hempty : Disk.Entry.LeadsTo disk root.way []) (hshown : root.shown ≠ "") (path : String)
    {callers callers' : Nat → Caller} (hnow : ∀ n, (callers' n).now = (callers n).now)
    (hshows : ∀ n, (callers n).now.Shows) (hdistinct : Distinct callers)
    (hdistinct' : Distinct callers') {commands : List Command}
    (hadmits : AdmitsAll root callers commands) :
    Session.outcomes root.storage callers 0 commands ⟨disk, []⟩ =
      Session.outcomes (Objects.ofPath path).storage callers' 0 commands ⟨{}, []⟩ := by
  have hready : ∀ i c, commands[i]? = some c → Ready root.manner (Objects.ofPath path).manner
      root.AdmitsCall (fun _ _ => True) (callers (0 + i)) (callers' (0 + i)) c := by
    intro i c hc
    rw [Nat.zero_add]
    refine ⟨hnow i, hshows i, fun acquired r hr => ?_, fun _ _ _ => trivial, fun t ht hvalid => ?_⟩
    · refine Folder.admitsCall_of_target fun t ht hvalid => hadmits i c t hc ?_ hvalid
      rw [← request?_target hr, ht]
    · have habsent : (root.absent t).kind = .missing :=
        congrArg Error.kind (Folder.absent_of_admits (hadmits i c t hc ht hvalid) hvalid)
      exact habsent
  exact outcomes_of_twins (root.keeps hshown) (Objects.keeps path) hdistinct hdistinct' hready
    (twins_empty callers callers') (Folder.holds_empty hempty) (Objects.holds_empty _)

/-- Callers at one time, who count their records in the tokens. -/
def countingCaller (holder : String) (n : Nat) : Caller where
  holder := holder
  pid := 1
  now := ⟨0, 0⟩
  token k := String.ofList (List.replicate n 'n' ++ '-' :: List.replicate k 'k')

theorem distinct_countingCaller (holder : String) : Distinct (countingCaller holder) := by
  intro n k m j h
  have hmark (i : Nat) : '-' ∉ List.replicate i 'n' := by
    intro hmem
    cases List.eq_of_mem_replicate hmem
  obtain ⟨hn, hk⟩ := Text.append_mark_inj (String.ofList_inj.1 h) (hmark n) (hmark m)
  have hn := congrArg List.length hn
  have hk := congrArg List.length hk
  rw [List.length_replicate, List.length_replicate] at hn hk
  exact ⟨hn, hk⟩

theorem admits_countingCaller {n : Nat} (hn : n < 7) :
    (⟨["states"], "states"⟩ : Folder).Admits (countingCaller "ann" n) "prod" := by
  have hfiles : ∀ n < 7, ∀ file ∈ Folder.callFiles (countingCaller "ann" n),
      file.utf8ByteSize ≤ Disk.nameLimit ∧
        Disk.Entry.check ["states", "prod", file] = .ok () := by
    decide +kernel
  exact ⟨⟨by decide, by decide⟩, fun file hfile =>
    ⟨(hfiles n hn file hfile).1, (hfiles n hn file hfile).2⟩⟩

/-- A lock is broken, and its first holder may not change the document any more. -/
def breakingCommands : List Command :=
  [.acquire "prod" 3600, .persist "prod" "new".toUTF8 0, .acquire "prod" 0, .load "prod",
    .delete "prod" 0, .release "prod" 1, .list]

theorem outcomes_eq_breaking :
    Session.outcomes (Folder.storage ⟨["states"], "states"⟩) (countingCaller "ann") 0
        breakingCommands ⟨.folder [("states", .folder [])], []⟩ =
      Session.outcomes (Objects.ofPath "/states/").storage (countingCaller "bob") 0
        breakingCommands ⟨{}, []⟩ := by
  have hempty : Disk.Entry.LeadsTo (.folder [("states", .folder [])]) ["states"] [] := ⟨rfl, rfl⟩
  have hnow : ∀ n, (countingCaller "bob" n).now = (countingCaller "ann" n).now := fun _ => rfl
  have hstart : Instant.Shows ⟨0, 0⟩ := ⟨by decide, by decide⟩
  have hshows : ∀ n, (countingCaller "ann" n).now.Shows := fun _ => hstart
  have hprod : ∀ c ∈ breakingCommands, ∀ target, c.target? = some target → target = "prod" := by
    simp [breakingCommands, Command.target?, eq_comm]
  have hadmits : AdmitsAll ⟨["states"], "states"⟩ (countingCaller "ann") breakingCommands := by
    intro i c target hc htarget _
    rw [hprod c (List.mem_of_getElem? hc) target htarget]
    exact admits_countingCaller (List.getElem?_eq_some_iff.1 hc).1
  exact outcomes_folder_eq_objects ⟨["states"], "states"⟩ hempty (by decide) "/states/" hnow hshows
    (distinct_countingCaller "ann") (distinct_countingCaller "bob") hadmits

/-- Processes on hosts whose names have a slash. -/
def slashedCaller (n : Nat) : Caller :=
  .ofProcess (String.ofList ('a' :: '/' :: List.replicate (n + 1) 'b')) 1 ⟨0, 0⟩ 0

theorem distinct_slashedCaller : Distinct slashedCaller := by
  intro n k m j h
  obtain ⟨hholder, -, hnumber, -⟩ := Lock.tokenText_inj h
  have hlength := congrArg (fun s : String => s.toList.length) hholder
  simp only [String.toList_ofList, List.length_cons, List.length_replicate] at hlength
  omega

/-- A folder has no place for a private file with a slash in its name, and a store needs none. -/
theorem outcomes_ne_slashed :
    Disk.Entry.LeadsTo (.folder [("states", .folder [])]) ["states"] [] ∧
      (∀ n, (slashedCaller n).now.Shows) ∧ Distinct slashedCaller ∧
      Session.outcomes (Folder.storage ⟨["states"], "states"⟩) slashedCaller 0
          [.acquire "prod" 3600] ⟨.folder [("states", .folder [])], []⟩ =
        [some (.failed .disk)] ∧
      Session.outcomes (Objects.ofPath "/states/").storage slashedCaller 0
          [.acquire "prod" 3600] ⟨{}, []⟩ = [some .acquired] := by
  have hstart : Instant.Shows ⟨0, 0⟩ := ⟨by decide, by decide⟩
  refine ⟨⟨rfl, rfl⟩, fun _ => hstart, distinct_slashedCaller, ?_, ?_⟩
  · decide +kernel
  · decide +kernel

end Backend

end ClusterLedger
