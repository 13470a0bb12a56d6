import ClusterLedger.Document.Request

/-!
# Segments of module names

The names of clusters and the host names of nodes have no underscore, so module names made of them
come apart again. Numbering a host name keeps that.
-/
namespace ClusterLedger

theorem isNameSegment_iff {s : String} : isNameSegment s = true ↔
    s ≠ "" ∧ ∀ c ∈ s.toList, c.isAlphanum = true ∨ c = '-' := by
  simp only [isNameSegment, Text.isAsciiAlphanumeric, decide_eq_true_eq, List.all_eq_true,
    Bool.or_eq_true]

theorem ne_empty_of_segment {s : String} (h : isNameSegment s = true) : s ≠ "" :=
  (isNameSegment_iff.1 h).1

theorem not_mem_of_segment {s : String} (h : isNameSegment s = true) : '_' ∉ s.toList := by
  intro hc
  have hclass := (isNameSegment_iff.1 h).2 '_' hc
  revert hclass
  decide

namespace Hostname

variable {base hostname : String}

theorem numbered_segment (h : isNameSegment base = true) (n : Nat) :
    isNameSegment (numbered base n) = true := by
  obtain ⟨hne, hall⟩ := isNameSegment_iff.1 h
  refine isNameSegment_iff.2 ⟨fun he => ?_, fun c hc => ?_⟩
  · have hlen := congrArg String.length he
    simp [numbered] at hlen
  · simp only [numbered, String.toList_append, List.mem_append, String.toList_ofList] at hc
    rcases hc with (hc | hc) | hc
    · exact hall c hc
    · have hmark : c = '-' := by simpa using hc
      exact .inr hmark
    · have hdigit := Nat.isDigit_of_mem_toDigits (by decide) (by decide) hc
      exact .inl (by simp [Char.isAlphanum, hdigit])

theorem fresh_segment (h : isNameSegment base = true) {existing : List String} {count : Nat}
    (hm : hostname ∈ fresh existing base count) : isNameSegment hostname = true := by
  rw [fresh] at hm
  split at hm
  · rw [List.mem_singleton.1 hm]
    exact h
  · obtain ⟨i, -, rfl⟩ := List.mem_map.1 hm
    exact numbered_segment h _

end Hostname

end ClusterLedger
