import ClusterLedger.Backend.Objects
import ClusterLedger.Proofs.Text.Affix

/-!
# Keys of objects

The key of a file of a target can be taken apart: it begins with the place of the targets, and the
target ends at the next slash.
-/
namespace ClusterLedger

namespace Target

variable {name : String}

theorem not_mem_of_isValid (h : isValid name = true) : '/' ∉ name.toList := by
  intro hmem
  simp only [isValid, decide_eq_true_eq, List.all_eq_true] at h
  exact (h.2.2.2 '/' hmem).1 rfl

theorem toList_ne_nil_of_isValid (h : isValid name = true) : name.toList ≠ [] := by
  intro hnil
  simp only [isValid, decide_eq_true_eq] at h
  exact h.1 (String.toList_eq_nil_iff.1 hnil)

end Target

namespace Backend.Objects

variable {o : Objects} {target target' file file' : String}

/-- A file of a target, as text behind the place of the targets. -/
def objectChars (target file : String) : List Char :=
  target.toList ++ '/' :: file.toList

/-- What stands before the target in a key. -/
def placeChars (o : Objects) : List Char :=
  if o.path = "" then [] else o.path.toList ++ ['/']

theorem toList_keyOf (o : Objects) (target file : String) :
    (o.keyOf target file).toList = o.placeChars ++ objectChars target file := by
  rw [keyOf, placeChars, objectChars]
  split <;> simp

/-- No two files of targets have one key. -/
theorem keyOf_inj (h : Target.isValid target = true) (h' : Target.isValid target' = true) :
    o.keyOf target file = o.keyOf target' file' ↔ target = target' ∧ file = file' := by
  constructor
  · intro hkey
    have hchars := congrArg String.toList hkey
    rw [toList_keyOf, toList_keyOf] at hchars
    obtain ⟨htarget, hfile⟩ := Text.append_mark_inj (List.append_cancel_left hchars)
      (Target.not_mem_of_isValid h) (Target.not_mem_of_isValid h')
    exact ⟨String.toList_inj.1 htarget, String.toList_inj.1 hfile⟩
  · rintro ⟨rfl, rfl⟩
    rfl

end Backend.Objects

end ClusterLedger
