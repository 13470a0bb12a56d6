import ClusterLedger.Proofs.Dict
import ClusterLedger.Proofs.Text.Affix
import ClusterLedger.Store.Memory

/-!
# Listings of a store in memory

The folders in a listing are the next parts of the keys that go on behind them. Where every key does,
the listing has exactly those parts.
-/
namespace ClusterLedger.Store.Memory

variable {folder key name rest : String} {objects : Objects}

/-- What the folder shows of a key that goes on behind its next part. -/
theorem child?_eq_folder (hname : '/' ∉ name.toList)
    (hkey : key.toList = folder.toList ++ (name.toList ++ '/' :: rest.toList)) :
    child? folder key = some ⟨name, .folder⟩ := by
  have happend : key = folder ++ (name ++ "/" ++ rest) := by
    rw [← String.toList_inj, hkey]
    simp
  have hcut : Text.cut? '/' (name ++ "/" ++ rest) = some (name, rest) := by
    have hchars : (name ++ "/" ++ rest).toList = name.toList ++ '/' :: rest.toList := by simp
    rw [Text.cut?, hchars, Text.cutChars?_eq_some.2 ⟨rfl, hname⟩]
    simp
  have hne : name ++ "/" ++ rest ≠ "" := by
    intro he
    rw [he] at hcut
    cases hcut
  rw [child?, happend, Text.after?_append]
  split
  · next he => cases he
  · next he => exact absurd (Option.some.inj he) hne
  · next he =>
    cases he
    rw [hcut]

theorem noteChild_folder (listing : Dict EntryKind) (name : String) :
    noteChild listing ⟨name, .folder⟩ = listing.insert name .folder :=
  rfl

/-- What is a folder for one key stays one. -/
theorem get?_noteChild (listing : Dict EntryKind) (line : Listed) :
    (noteChild listing line).get? name = some .folder ↔
      listing.get? name = some .folder ∨ ⟨name, .folder⟩ = line := by
  obtain ⟨n, kind⟩ := line
  cases kind with
  | folder =>
    rw [noteChild_folder, Dict.get?_insert]
    by_cases hn : n = name
    · simp [hn]
    · simp [hn, Ne.symm hn]
  | object =>
    simp only [noteChild, Listed.mk.injEq, reduceCtorEq, and_false, or_false]
    split
    · rfl
    · next hfree =>
      rw [Dict.get?_insert]
      split
      · next hn =>
        subst hn
        rw [Dict.contains_eq_false.1 (Bool.eq_false_iff.2 hfree)]
        exact iff_of_false nofun nofun
      · rfl

theorem get?_noteChildren (lines : List Listed) (listing : Dict EntryKind) :
    (lines.foldl noteChild listing).get? name = some .folder ↔
      listing.get? name = some .folder ∨ ⟨name, .folder⟩ ∈ lines := by
  induction lines generalizing listing with
  | nil => simp
  | cons line lines ih => rw [List.foldl_cons, ih, get?_noteChild, List.mem_cons, or_assoc]

/-- The names in a listing are in increasing order, each once. -/
theorem names_list_sorted (objects : Objects) (path : String) :
    ((list objects path).map Listed.name).Pairwise (· < ·) := by
  rw [list, List.map_map]
  exact Dict.keys_sorted _

/-- The folders of a listing are those that keys go on behind. -/
theorem folder_mem_list {path : String} :
    ⟨name, .folder⟩ ∈ list objects path ↔ ∃ key bytes, objects.get? key = some bytes ∧
      child? (folderKey path) key = some ⟨name, .folder⟩ := by
  have hnone : (Dict.empty : Dict EntryKind).get? name ≠ some .folder := nofun
  have hget : ((objects.keys.filterMap (child? (folderKey path))).foldl noteChild Dict.empty).get? name =
      some .folder ↔ _ := get?_noteChildren _ _
  simp only [hnone, false_or, List.mem_filterMap, Dict.mem_keys] at hget
  constructor
  · intro hmem
    obtain ⟨⟨n, kind⟩, he, hline⟩ := List.mem_map.1 hmem
    cases hline
    obtain ⟨key, ⟨bytes, hbytes⟩, hchild⟩ := hget.1 (Dict.get?_eq_some.2 he)
    exact ⟨key, bytes, hbytes, hchild⟩
  · rintro ⟨key, bytes, hbytes, hchild⟩
    have hmem := Dict.get?_eq_some.1 (hget.2 ⟨key, ⟨bytes, hbytes⟩, hchild⟩)
    exact List.mem_map.2 ⟨_, hmem, rfl⟩

theorem all_noteChildren {lines : List Listed} {listing : Dict EntryKind}
    (hlines : ∀ line ∈ lines, line.kind = .folder) (hlisting : listing.All (· = .folder)) :
    (lines.foldl noteChild listing).All (· = .folder) := by
  induction lines generalizing listing with
  | nil => exact hlisting
  | cons line lines ih =>
    obtain ⟨n, kind⟩ := line
    obtain rfl : kind = .folder := hlines _ List.mem_cons_self
    exact ih (fun l hl => hlines l (List.mem_cons_of_mem _ hl)) (hlisting.insert rfl)

/-- The folders that a listing has, in increasing order. -/
theorem list_eq_folders {path : String} (h : ∀ key bytes, objects.get? key = some bytes →
      ∃ name, child? (folderKey path) key = some ⟨name, .folder⟩) :
    ∃ names : List String, names.Pairwise (· < ·) ∧
      list objects path = names.map (fun name => ⟨name, .folder⟩) ∧
      ∀ name, name ∈ names ↔ ∃ key bytes, objects.get? key = some bytes ∧
        child? (folderKey path) key = some ⟨name, .folder⟩ := by
  have hlines : ∀ line ∈ objects.keys.filterMap (child? (folderKey path)), line.kind = .folder := by
    intro line hline
    obtain ⟨key, hkey, hchild⟩ := List.mem_filterMap.1 hline
    obtain ⟨bytes, hbytes⟩ := Dict.mem_keys.1 hkey
    obtain ⟨name, hname⟩ := h key bytes hbytes
    rw [hchild] at hname
    cases hname
    rfl
  have hall := all_noteChildren hlines Dict.all_empty
  have hlist : list objects path =
      ((list objects path).map Listed.name).map fun name => ⟨name, .folder⟩ := by
    rw [list, List.map_map, List.map_map]
    refine List.map_congr_left fun e he => ?_
    rw [hall e.1 e.2 (Dict.get?_eq_some.2 he)]
    rfl
  refine ⟨_, names_list_sorted objects path, hlist, fun name => ?_⟩
  rw [← folder_mem_list, hlist]
  simp

end ClusterLedger.Store.Memory
