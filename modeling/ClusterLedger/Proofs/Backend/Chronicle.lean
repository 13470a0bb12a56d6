import ClusterLedger.Backend.Folder
import ClusterLedger.Proofs.Backend.Ledger

/-!
# What answers tell

A chronicle is a ledger that also has the documents that have been replaced. The answers to calls
tell it, and it tells what the files of the targets are.
-/
namespace ClusterLedger.Backend

open Folder (backupFile)

/-- The locks and the documents of all targets, and the documents that have been replaced. -/
structure Chronicle extends Ledger where
  replaced : Dict ByteArray

namespace Chronicle

variable {c : Chronicle} {target t n : String}

def empty : Chronicle :=
  ⟨.empty, {}⟩

def hold (c : Chronicle) (target : String) (lock : Lock) : Chronicle :=
  { c with toLedger := c.toLedger.hold target lock }

def free (c : Chronicle) (target : String) : Chronicle :=
  { c with toLedger := c.toLedger.free target }

/-- The document that was there has been replaced; the first one replaces none. -/
def put (c : Chronicle) (target : String) (bytes : ByteArray) : Chronicle where
  toLedger := c.toLedger.put target bytes
  replaced := match c.documents.get? target with
    | some old => c.replaced.insert target old
    | none => c.replaced.erase target

def drop (c : Chronicle) (target : String) : Chronicle where
  toLedger := c.toLedger.drop target
  replaced := c.replaced.erase target

/-- What is told by the answer to a request; an error tells of no change. -/
def note (c : Chronicle) : (r : Request) → Result r.Yield → Chronicle
  | .acquire target, .ok lock => c.hold target lock
  | .release target _, .ok () => c.free target
  | .persist target bytes _, .ok () => c.put target bytes
  | .delete target _, .ok () => c.drop target
  | _, _ => c

theorem note_error (c : Chronicle) (r : Request) (e : Error) : c.note r (.error e) = c := by
  cases r <;> rfl

/-- The bytes of a file of a target. -/
def file? (c : Chronicle) (target name : String) : Option ByteArray :=
  if name = backupFile then c.replaced.get? target else c.bytes? target name

theorem file?_backupFile (c : Chronicle) (t : String) :
    c.file? t backupFile = c.replaced.get? t :=
  if_pos rfl

theorem file?_of_ne (c : Chronicle) (t : String) (h : n ≠ backupFile) :
    c.file? t n = c.bytes? t n :=
  if_neg h

theorem file?_stateFile (c : Chronicle) (t : String) :
    c.file? t Target.stateFile = c.documents.get? t := by
  rw [file?_of_ne c t (by decide), Ledger.bytes?_stateFile]

/-- A change of a lock is a change of one file. -/
theorem file?_of_replaces {l : Ledger} {value : Option ByteArray}
    (h : c.Replaces l target Target.lockFile value) (t n : String) :
    ({ c with toLedger := l } : Chronicle).file? t n =
      if target = t ∧ Target.lockFile = n then value else c.file? t n := by
  by_cases hn : n = backupFile
  · subst hn
    rw [if_neg fun he => absurd he.2 (by decide)]
    rfl
  · rw [file?_of_ne _ t hn, file?_of_ne c t hn]
    exact h t n

theorem file?_hold (c : Chronicle) (target : String) (lock : Lock) (t n : String) :
    (c.hold target lock).file? t n =
      if target = t ∧ Target.lockFile = n then some lock.toBytes else c.file? t n :=
  file?_of_replaces (c.replaces_hold target lock) t n

theorem file?_free (c : Chronicle) (target t n : String) : (c.free target).file? t n =
    if target = t ∧ Target.lockFile = n then none else c.file? t n :=
  file?_of_replaces (c.replaces_free target) t n

theorem replaced_put (c : Chronicle) (target : String) (bytes : ByteArray) (t : String) :
    (c.put target bytes).replaced.get? t =
      if target = t then c.documents.get? target else c.replaced.get? t := by
  rw [put]
  cases hget : c.documents.get? target with
  | some old => exact Dict.get?_insert _ _ _ _
  | none => exact Dict.get?_erase _ _ _

theorem file?_put_of_ne (c : Chronicle) (bytes : ByteArray) (h : t ≠ target) (n : String) :
    (c.put target bytes).file? t n = c.file? t n := by
  by_cases hn : n = backupFile
  · subst hn
    rw [file?_backupFile, file?_backupFile, replaced_put, if_neg h.symm]
  · rw [file?_of_ne _ t hn, file?_of_ne c t hn]
    exact (c.replaces_put target bytes t n).trans (if_neg fun he => h he.1.symm)

theorem file?_put_self (c : Chronicle) (target : String) (bytes : ByteArray) (n : String) :
    (c.put target bytes).file? target n = if Target.stateFile = n then some bytes
      else if backupFile = n then c.file? target Target.stateFile else c.file? target n := by
  by_cases hn : n = backupFile
  · subst hn
    rw [if_neg (by decide), if_pos rfl, file?_backupFile, replaced_put, if_pos rfl, file?_stateFile]
  · rw [if_neg (Ne.symm hn), file?_of_ne _ target hn, file?_of_ne c target hn]
    refine (c.replaces_put target bytes target n).trans ?_
    exact if_congr (and_iff_right rfl) rfl rfl

theorem file?_drop (c : Chronicle) (target t n : String) : (c.drop target).file? t n =
    if target = t ∧ (Target.stateFile = n ∨ backupFile = n) then none else c.file? t n := by
  by_cases hn : n = backupFile
  · subst hn
    rw [file?_backupFile, file?_backupFile]
    refine (Dict.get?_erase _ _ _).trans ?_
    exact if_congr (and_iff_left (.inr rfl)).symm rfl rfl
  · rw [file?_of_ne _ t hn, file?_of_ne c t hn]
    refine (c.replaces_drop target t n).trans ?_
    exact if_congr (and_congr_right fun _ => (or_iff_left (Ne.symm hn)).symm) rfl rfl

/-- A document has been replaced only where there is one. -/
def Proper (c : Chronicle) : Prop :=
  ∀ t, c.documents.get? t = none → c.replaced.get? t = none

theorem proper_empty : empty.Proper :=
  fun _ _ => rfl

theorem Proper.put (h : c.Proper) (target : String) (bytes : ByteArray) :
    (c.put target bytes).Proper := by
  intro t ht
  rw [replaced_put]
  have hget : (c.documents.insert target bytes).get? t = none := ht
  rw [Dict.get?_insert] at hget
  split at hget
  · cases hget
  · next hne =>
    rw [if_neg hne]
    exact h t hget

theorem Proper.drop (h : c.Proper) (target : String) : (c.drop target).Proper := by
  intro t ht
  have hget : (c.documents.erase target).get? t = none := ht
  show (c.replaced.erase target).get? t = none
  rw [Dict.get?_erase] at hget ⊢
  split
  · rfl
  · next hne =>
    rw [if_neg hne] at hget
    exact h t hget

end Chronicle

end ClusterLedger.Backend
