import ClusterLedger.Proofs.Backend.Objects
import ClusterLedger.Proofs.Lock.Token

/-!
# Holders of a lock

A lock is given up by the bytes of its record, and writes are guarded by its token. Records are read
back as they were stored, and a token tells who wrote it, so both find the same holder.
-/
namespace ClusterLedger.Backend.Objects

/-! ## What a store keeps -/

variable {σ α : Type} {answer : (r : Store.effects.Request) → σ → Store.effects.Reply r × σ}
  {s s' : σ} {o : Objects} {target key : String} {bytes : ByteArray} {stored mine : Lock}

/-- A store that keeps bytes under a key yields them, and removes them for whoever names them. -/
structure Retains (answer : (r : Store.effects.Request) → σ → Store.effects.Reply r × σ) (s : σ)
    (key : String) (bytes : ByteArray) : Prop where
  get : (answer (Store.Request.get key) s).1 = .ok (some bytes)
  delete : ∀ expected, (answer (Store.Request.deleteIfMatches key expected) s).1 =
    .ok (decide (expected = bytes))

theorem retains_of_get? {objects : Store.Memory.Objects} (h : objects.get? key = some bytes) :
    Retains Store.Memory.answer objects key bytes where
  get := congrArg Except.ok h
  delete expected := by
    simp only [Store.Memory.answer, h, Option.some.injEq]
    by_cases he : expected = bytes
    · rw [if_pos he.symm, decide_eq_true he]
    · rw [if_neg (Ne.symm he), decide_eq_false he]

/-- A call is accepted. -/
def Accepts (answer : (r : Store.effects.Request) → σ → Store.effects.Reply r × σ) (s : σ)
    (call : Attempt Store.effects Unit) : Prop :=
  (call.run answer s).1 = .ok ()

theorem accepts_bind {a : Attempt Store.effects α} {f : α → Attempt Store.effects Unit} {v : α}
    (h : a.run answer s = (.ok v, s')) :
    Accepts answer s (a >>= f) ↔ Accepts answer s' (f v) := by
  rw [Accepts, Attempt.run_bind_ok answer h]
  rfl

/-- A call on a target is the one on its key. -/
theorem accepts_key_bind {file : String} {f : String → Attempt Store.effects Unit}
    (hvalid : Target.isValid target = true) :
    Accepts answer s (Attempt.ofResult (o.key target file) >>= f) ↔
      Accepts answer s (f (o.keyOf target file)) := by
  rw [key_of_isValid hvalid]
  exact accepts_bind rfl

/-- What fails in the end is not accepted. -/
theorem not_accepts_throw {a : Attempt Store.effects α} {e : α → Error} :
    ¬Accepts answer s (a >>= fun v => throw (e v)) := by
  intro h
  cases hrun : a.run answer s with
  | mk r s' =>
    cases r with
    | ok v => cases (accepts_bind hrun).1 h
    | error e =>
      rw [Accepts, Attempt.run_bind_error answer hrun] at h
      cases h

/-- The lock is given up by whoever has the bytes of the record. -/
theorem accepts_release (hvalid : Target.isValid target = true)
    (hretains : Retains answer s (o.keyOf target Target.lockFile) bytes) :
    Accepts answer s (o.release target mine) ↔ mine.toBytes = bytes := by
  have hdelete : (Store.ask (.deleteIfMatches (o.keyOf target Target.lockFile) mine.toBytes)).run
      answer s = (.ok (decide (mine.toBytes = bytes)), _) := Prod.ext (hretains.delete _) rfl
  refine (accepts_key_bind hvalid).trans ((accepts_bind hdelete).trans ?_)
  by_cases hsame : mine.toBytes = bytes
  · rw [decide_eq_true hsame]
    exact iff_of_true rfl hsame
  · rw [decide_eq_false hsame]
    exact iff_of_false not_accepts_throw hsame

theorem readLock_of_retains (hretains : Retains answer s key stored.toBytes)
    (hstored : stored.acquiredAt.Plain) : (readLock key).run answer s =
      (.ok (some (stored.toBytes, stored)), (answer (Store.Request.get key) s).2) := by
  have hget : (Store.ask (.get key)).run answer s = (.ok (some stored.toBytes), _) :=
    Prod.ext hretains.get rfl
  rw [readLock, Attempt.run_bind_ok answer hget]
  simp only [Lock.ofBytes?_toBytes_of_shows hstored.shows]
  rfl

/-- Writes are guarded by the token of the record. -/
theorem accepts_guard (hvalid : Target.isValid target = true)
    (hretains : Retains answer s (o.keyOf target Target.lockFile) stored.toBytes)
    (hstored : stored.acquiredAt.Plain) :
    Accepts answer s (o.guard target mine) ↔ mine.token = stored.token := by
  have hread := readLock_of_retains hretains hstored
  refine (accepts_key_bind hvalid).trans ((accepts_bind hread).trans ?_)
  have hsame : some stored.token = some mine.token ↔ mine.token = stored.token :=
    Option.some_inj.trans eq_comm
  rw [← hsame]
  show verify target mine (some stored) = .ok () ↔ _
  rw [verify]
  split
  · next htoken => exact iff_of_true rfl htoken
  · next htoken =>
    refine iff_of_false (fun h => ?_) htoken
    cases h

/-! ## One holder for both -/

/-- Records of the years 0 to 9999 are read back, and no two have the same bytes. What a process
acquires is one of its records, and the store keeps it. Of a record that is kept, the lock is given up
for that record only, and writes are let through for its token only; among the records that processes
write these are the same. -/
theorem one_holder :
    (∀ l : Lock, l.acquiredAt.Plain → Lock.ofBytes? l.toBytes = some l) ∧
    (∀ l l' : Lock, l.acquiredAt.Plain → l'.acquiredAt.Plain → (l.toBytes = l'.toBytes ↔ l = l')) ∧
    (∀ (o : Objects) (target holder : String) (pid : UInt32) (now : Instant)
      (written staleAfter : Nat) (lock : Lock) (objects objects' : Store.Memory.Objects),
      (o.acquire (.ofProcess holder pid now written) staleAfter target).run Store.Memory.answer
        objects = (.ok lock, objects') →
      (∃ i, lock = Lock.issue holder pid now (written + i)) ∧
        Retains Store.Memory.answer objects' (o.keyOf target Target.lockFile) lock.toBytes) ∧
    ∀ {σ : Type} (answer : (r : Store.effects.Request) → σ → Store.effects.Reply r × σ) (s : σ)
      (o : Objects) (target : String) (stored mine : Lock),
      Target.isValid target = true → stored.acquiredAt.Plain → mine.acquiredAt.Plain →
      Retains answer s (o.keyOf target Target.lockFile) stored.toBytes →
      (Accepts answer s (o.release target mine) ↔ mine = stored) ∧
      (Accepts answer s (o.guard target mine) ↔ mine.token = stored.token) ∧
      ∀ (p q : Process) (n m : Nat), stored = p.record n → mine = q.record m →
        (Accepts answer s (o.guard target mine) → q.holder = p.holder ∧ q.pid = p.pid ∧ m = n) ∧
        (p.Apart q n m →
          (Accepts answer s (o.guard target mine) ↔ Accepts answer s (o.release target mine))) := by
  refine ⟨fun l hl => Lock.ofBytes?_toBytes_of_shows hl.shows, fun l l' => Lock.toBytes_inj, ?_, ?_⟩
  · intro o target holder pid now written staleAfter lock objects objects' hrun
    obtain ⟨⟨i, rfl⟩, hget⟩ := (o.acquire_ends (.ofProcess holder pid now written) staleAfter target
      objects).2 lock (congrArg Prod.fst hrun)
    rw [hrun] at hget
    exact ⟨⟨i, rfl⟩, retains_of_get? hget⟩
  · intro σ answer s o target stored mine hvalid hstored hmine hretains
    have hrelease : Accepts answer s (o.release target mine) ↔ mine = stored :=
      (accepts_release hvalid hretains).trans (Lock.toBytes_inj hmine hstored)
    have hguard : Accepts answer s (o.guard target mine) ↔ mine.token = stored.token :=
      accepts_guard hvalid hretains hstored
    refine ⟨hrelease, hguard, ?_⟩
    rintro p q n m rfl rfl
    refine ⟨fun h => Process.of_token_eq (hguard.1 h), fun hapart => ?_⟩
    rw [hrelease, hguard]
    exact ⟨Process.record_eq_of_token_eq hstored hmine hapart, congrArg Lock.token⟩

/-! ## An identifier that is used again -/

/-- A process of the year 2000. -/
def former : Process := ⟨"oracle-host", 41, fun n => ⟨951782400 + n, 0⟩⟩

/-- A process of the year 2100. -/
def latter : Process := ⟨"oracle-host", 41, fun n => ⟨4102444800 + n, 250000000⟩⟩

theorem plain_former : (former.clock 0).Plain := ⟨by decide, by decide, by decide⟩

theorem plain_latter : (latter.clock 0).Plain := ⟨by decide, by decide, by decide⟩

/-- The latter process takes the lock, which is not that of the former one. -/
theorem one_holder_reused :
    let objects : Store.Memory.Objects :=
      Dict.empty.insert "states/prod/lock.json" (latter.record 0).toBytes
    let backend := ofPath "/states"
    (∃ i, latter.record 0 = Lock.issue "oracle-host" 41 ⟨4102444800, 250000000⟩ (0 + i)) ∧
      Lock.ofBytes? (latter.record 0).toBytes = some (latter.record 0) ∧
      (latter.record 0).toBytes ≠ (former.record 0).toBytes ∧
      Accepts Store.Memory.answer objects (backend.release "prod" (latter.record 0)) ∧
      Accepts Store.Memory.answer objects (backend.guard "prod" (latter.record 0)) ∧
      ¬Accepts Store.Memory.answer objects (backend.guard "prod" (former.record 0)) := by
  intro objects backend
  obtain ⟨hreads, hbytes, hstores, haccepts⟩ := @one_holder
  have hne : latter.record 0 ≠ former.record 0 := by decide
  have hrun := @acquire_free backend "prod" (.ofProcess "oracle-host" 41 ⟨4102444800, 250000000⟩ 0)
    Dict.empty (by decide) rfl 60
  obtain ⟨hissued, hretains⟩ := hstores _ _ _ _ _ _ _ _ _ _ hrun
  obtain ⟨hrelease, -, hguard⟩ := haccepts _ _ _ _ _ (latter.record 0) (by decide) plain_latter
    plain_latter hretains
  obtain ⟨hrelease', -, hguard'⟩ := haccepts _ _ _ _ _ (former.record 0) (by decide) plain_latter
    plain_former hretains
  have hown := (hguard latter latter 0 0 rfl rfl).2 fun _ _ => .inl rfl
  have hother := (hguard' latter former 0 0 rfl rfl).2 fun _ _ => .inr ⟨by decide, by decide⟩
  refine ⟨hissued, hreads _ plain_latter, ?_, hrelease.2 rfl, hown.2 (hrelease.2 rfl), ?_⟩
  · exact fun h => hne ((hbytes _ _ plain_latter plain_former).1 h)
  · exact fun h => hne.symm (hrelease'.1 (hother.1 h))

end ClusterLedger.Backend.Objects
