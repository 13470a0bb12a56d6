import ClusterLedger.Lock.Record
import ClusterLedger.Proofs.Lock.Instant
import ClusterLedger.Proofs.Text.Affix
import ClusterLedger.Proofs.Text.Digits

/-!
# Tokens

A token is taken apart from its end: behind the last mark stands the number, in front of it the time
with its sign, in front of that the process, and what is left is the holder, which may have marks of
its own. So the records of processes are told apart by their tokens.
-/
namespace ClusterLedger

theorem Text.dash_not_mem_digits (n : Nat) : '-' ∉ digits n :=
  fun h => absurd (isDigit_of_mem_digits h) (by decide)

namespace Lock

/-- A number of a token behind its mark. -/
theorem number_inj {a c : List Char} {m n : Nat}
    (h : a ++ '-' :: Text.digits m = c ++ '-' :: Text.digits n) : a = c ∧ m = n := by
  obtain ⟨hac, hmn⟩ :=
    Text.append_last_mark_inj h (Text.dash_not_mem_digits m) (Text.dash_not_mem_digits n)
  exact ⟨hac, Text.digits_inj hmn⟩

theorem ne_of_sign {a c : List Char} {n : Nat} : a ++ ['-'] ≠ c ++ '-' :: Text.digits n := by
  intro h
  obtain ⟨-, hnil⟩ := Text.append_last_mark_inj h List.not_mem_nil (Text.dash_not_mem_digits n)
  exact Text.digits_ne_nil n hnil.symm

/-- Two marks in a row are a mark and a sign, since digits stand in front of the mark. -/
theorem integer_inj {a c : List Char} {p q : Nat} {m n : Int}
    (h : (a ++ '-' :: Text.digits p) ++ '-' :: Json.intChars m =
      (c ++ '-' :: Text.digits q) ++ '-' :: Json.intChars n) :
    a ++ '-' :: Text.digits p = c ++ '-' :: Text.digits q ∧ m = n := by
  have hsign (cs ds : List Char) : cs ++ '-' :: '-' :: ds = (cs ++ ['-']) ++ '-' :: ds := by simp
  rw [Json.intChars, Json.intChars] at h
  by_cases hm : m < 0 <;> by_cases hn : n < 0
  · rw [if_pos hm, if_pos hn, hsign, hsign] at h
    obtain ⟨hfront, hnumber⟩ := number_inj h
    exact ⟨List.append_cancel_right hfront, by omega⟩
  · rw [if_pos hm, if_neg hn, hsign] at h
    exact absurd (number_inj h).1 ne_of_sign
  · rw [if_neg hm, if_pos hn, hsign] at h
    exact absurd (number_inj h).1.symm ne_of_sign
  · rw [if_neg hm, if_neg hn] at h
    obtain ⟨hfront, hnumber⟩ := number_inj h
    exact ⟨hfront, by omega⟩

/-- A token tells the parts that it is made of. -/
theorem tokenText_inj {holder holder' : String} {pid pid' : UInt32} {now now' : Instant}
    {number number' : Nat}
    (h : tokenText holder pid now number = tokenText holder' pid' now' number') :
    holder = holder' ∧ pid = pid' ∧ number = number' ∧
      (now.isCounted → now'.isCounted → now.total = now'.total) := by
  have hchars := congrArg String.toList h
  have hdash : "-".toList = ['-'] := rfl
  simp only [tokenText, String.toList_append, String.toList_ofList, hdash, List.append_assoc,
    List.singleton_append] at hchars
  simp only [← List.append_assoc] at hchars
  obtain ⟨hfront, hnumber⟩ := number_inj hchars
  obtain ⟨hfront, hnanos⟩ := integer_inj hfront
  obtain ⟨hholder, hpid⟩ := number_inj hfront
  refine ⟨String.toList_inj.1 hholder, UInt32.toNat_inj.1 hpid, hnumber, fun hnow hnow' => ?_⟩
  rwa [if_pos hnow, if_pos hnow'] at hnanos

end Lock

/-! ## Processes -/

/-- A process: its host, its identifier there, and the instants at which it writes its records. -/
structure Process where
  holder : String
  pid : UInt32
  clock : Nat → Instant

namespace Process

/-- The record with a number among those that a process writes. -/
def record (p : Process) (number : Nat) : Lock :=
  Lock.issue p.holder p.pid (p.clock number) number

/-- Records are of one process, or of processes with other names, or both instants are counted and
stand in the tokens: an identifier is used again on a host, but not at the same time. -/
def Apart (p q : Process) (n m : Nat) : Prop :=
  p.holder = q.holder → p.pid = q.pid → p = q ∨ (p.clock n).isCounted ∧ (q.clock m).isCounted

variable {p q : Process} {m n : Nat}

/-- The token tells the process and the number. -/
theorem of_token_eq (h : (q.record m).token = (p.record n).token) :
    q.holder = p.holder ∧ q.pid = p.pid ∧ m = n :=
  have hparts := Lock.tokenText_inj h
  ⟨hparts.1, hparts.2.1, hparts.2.2.1⟩

theorem record_eq_of_token_eq (hp : (p.clock n).Plain) (hq : (q.clock m).Plain)
    (hapart : p.Apart q n m) (h : (q.record m).token = (p.record n).token) :
    q.record m = p.record n := by
  obtain ⟨hholder, hpid, hnumber, htotal⟩ := Lock.tokenText_inj h
  subst hnumber
  rcases hapart hholder.symm hpid.symm with rfl | ⟨hcounted, hcounted'⟩
  · rfl
  · have hclock := hq.eq_of_total hp (htotal hcounted' hcounted)
    rw [record, record, hholder, hpid, hclock]

end Process

end ClusterLedger
