import ClusterLedger.Proofs.Backend.Folder
import ClusterLedger.Proofs.Backend.Objects

/-!
# No update is lost

What the two storages have in common is enough: whoever may break whose lock, a document is replaced
only by one that was computed from it.
-/
namespace ClusterLedger.Backend

variable {ι : Type} [DecidableEq ι]

/-- Clients of a target in a folder, on any disk, and clients of a target in memory lose no update. -/
theorem no_lost_updates (target : String) :
    (∀ (root : Folder) (disk : Disk.Entry) (es : List (Event ι)) (w : World ι Disk.Entry),
      ClientRun root.storage target disk es w →
        NoLostUpdates (root.sub target).onRecord es w) ∧
    (∀ (o : Objects) (s : Store.Memory.Objects) (es : List (Event ι))
      (w : World ι Store.Memory.Objects),
      ClientRun o.storage target s es w → NoLostUpdates (o.slot target) es w) := by
  refine ⟨fun root disk es w h => ?_, fun o s es w h => ?_⟩
  · exact h.noLostUpdates (root.guarded target)
  · exact h.noLostUpdates (o.guarded target)

/-! ## A lock that is broken -/

/-- A caller at a second, with tokens of its own that begin with a letter. -/
def callerAt (letter : Char) (seconds : Int) : Caller :=
  ⟨"host", 1, ⟨seconds, 0⟩, fun k => String.ofList (letter :: List.replicate k '0')⟩

theorem token_callerAt_ne {a b : Char} (h : a ≠ b) (s t : Int) (k l : Nat) :
    (callerAt a s).token k ≠ (callerAt b t).token l := by
  intro he
  exact h (List.cons.inj (String.ofList_injective he)).1

/-- The key of the lock of a target at the top. -/
def prodLock : String :=
  (Objects.ofPath "").keyOf "prod" Target.lockFile

/-- The objects after a client has taken the lock. -/
def heldByFirst : Store.Memory.Objects :=
  Dict.insert {} prodLock ((callerAt 'a' 0).lock 0).toBytes

/-- The objects after another client has broken that lock. -/
def heldBySecond : Store.Memory.Objects :=
  (heldByFirst.erase prodLock).insert prodLock ((callerAt 'b' 100).lock 1).toBytes

theorem acquire_first : (Objects.ofPath "").storage (callerAt 'a' 0) 60 (.acquire "prod") {} =
    (.ok ((callerAt 'a' 0).lock 0), heldByFirst) :=
  Objects.acquire_free (by decide) rfl 60

theorem acquire_second :
    (Objects.ofPath "").storage (callerAt 'b' 100) 60 (.acquire "prod") heldByFirst =
      (.ok ((callerAt 'b' 100).lock 1), heldBySecond) := by
  have hstamp : Instant.read? (callerAt 'a' 0).now.stamp = some (callerAt 'a' 0).now := by
    decide +kernel
  have hget : heldByFirst.get? prodLock = some ((callerAt 'a' 0).lock 0).toBytes := by
    rw [heldByFirst, Dict.get?_insert, if_pos rfl]
  exact Objects.acquire_stale (by decide) hget (Lock.ofBytes?_toBytes_of_stamp hstamp) (by decide)

theorem persist_second : (Objects.ofPath "").storage (callerAt 'd' 100) 60
    (.persist "prod" .empty ((callerAt 'b' 100).lock 1)) heldBySecond =
      (.ok (), heldBySecond.insert ((Objects.ofPath "").keyOf "prod" Target.stateFile) .empty) := by
  have hstamp : Instant.read? (callerAt 'b' 100).now.stamp = some (callerAt 'b' 100).now := by
    decide +kernel
  have hlock : Lock.ofBytes? ((callerAt 'b' 100).lock 1).toBytes = some ((callerAt 'b' 100).lock 1) :=
    Lock.ofBytes?_toBytes_of_stamp hstamp
  have hget : heldBySecond.get? prodLock = some ((callerAt 'b' 100).lock 1).toBytes := by
    rw [heldBySecond, Dict.get?_insert, if_pos rfl]
  have hslot : (Objects.ofPath "").slot "prod" heldBySecond =
      some ((callerAt 'b' 100).lock 1).token := by
    change Lock.tokenIn? (heldBySecond.get? prodLock) = _
    rw [hget, Lock.tokenIn?, Option.bind_some, hlock]
    rfl
  exact Objects.persist_of_slot (by decide) hslot .empty

/-- The lock of one client is broken, and the one who broke it writes. -/
theorem no_lost_updates_broken_lock :
    ∃ (older : List (Event Bool)) (w : World Bool Store.Memory.Objects) (found : Result ByteArray),
      (∃ lock, .acquire false (.ok lock) ∈ older) ∧
        ClientRun (Objects.ofPath "").storage "prod" {} (.write true found (.ok ()) :: older) w ∧
        NoLostUpdates ((Objects.ofPath "").slot "prod") (.write true found (.ok ()) :: older) w := by
  have run : ClientRun (Objects.ofPath "").storage "prod" {} []
      (World.start {} : World Bool Store.Memory.Objects) := .start
  have run := run.step (.acquire (i := false) (callerAt 'a' 0) 60 nofun rfl)
  simp only [World.start, acquire_first] at run
  have run := run.step (.acquire (i := true) (callerAt 'b' 100) 60
    (by simp [World.Fresh, World.next, token_callerAt_ne]) rfl)
  simp only [World.next, acquire_second] at run
  have run := run.step (.load (i := true) (callerAt 'c' 100) 60
    (by simp [World.Fresh, token_callerAt_ne]) rfl)
  simp only [World.next, Objects.storage, Objects.perform, Objects.load_run] at run
  have run := run.step (.persist (i := true) (callerAt 'd' 100) 60 .empty
    (by simp [World.Fresh, token_callerAt_ne]) rfl)
  simp only [persist_second] at run
  exact ⟨_, _, _, ⟨_, .tail _ (.tail _ (.head _))⟩, run, (no_lost_updates "prod").2 _ _ _ _ run⟩

end ClusterLedger.Backend
