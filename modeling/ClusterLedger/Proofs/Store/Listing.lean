import ClusterLedger.Proofs.Json.Spelling
import ClusterLedger.Proofs.Store.Memory
import ClusterLedger.Proofs.Text.Utf8
import ClusterLedger.Store.Http
import Mathlib.Data.List.Basic

/-!
# Listings

What the objects of a store say about the children of a folder, and how a server writes it down:
one line for each child. There is one such listing, and it is read as it was written.
-/
namespace ClusterLedger.Store

variable {α : Type} {objects : Dict α} {folder key name : String}

/-! ## The children of a folder -/

/-- The immediate children of a folder in increasing order: a folder where keys go on behind the
name, and an object where one ends with it and none goes on. -/
structure ListsChildren (objects : Dict α) (folder : String) (children : List Listed) : Prop where
  sorted : (children.map Listed.name).Pairwise (· < ·)
  folder_iff : ∀ name, ⟨name, .folder⟩ ∈ children ↔
    '/' ∉ name.toList ∧ ∃ rest, objects.contains (folder ++ name ++ "/" ++ rest) = true
  object_iff : ∀ name, ⟨name, .object⟩ ∈ children ↔
    name ≠ "" ∧ '/' ∉ name.toList ∧ objects.contains (folder ++ name) = true ∧
      ∀ rest, objects.contains (folder ++ name ++ "/" ++ rest) = false

theorem eq_of_sorted {xs ys : List Listed} (hx : (xs.map Listed.name).Pairwise (· < ·))
    (hy : (ys.map Listed.name).Pairwise (· < ·)) (h : ∀ l, l ∈ xs ↔ l ∈ ys) : xs = ys := by
  have hinjective : Function.Injective fun l : Listed => (l.name, l.kind) := by
    rintro ⟨a, j⟩ ⟨b, k⟩ he
    cases he
    rfl
  have hsorted {zs : List Listed} (hz : (zs.map Listed.name).Pairwise (· < ·)) :
      Entries.Sorted (zs.map fun l => (l.name, l.kind)) :=
    List.pairwise_map.2 (List.pairwise_map.1 hz)
  apply List.map_injective_iff.2 hinjective
  apply (hsorted hx).ext (hsorted hy)
  intro e
  simp only [List.mem_map, h]

theorem ListsChildren.unique {xs ys : List Listed} (hx : ListsChildren objects folder xs)
    (hy : ListsChildren objects folder ys) : xs = ys := by
  apply eq_of_sorted hx.sorted hy.sorted
  rintro ⟨name, kind⟩
  cases kind with
  | folder => rw [hx.folder_iff, hy.folder_iff]
  | object => rw [hx.object_iff, hy.object_iff]

theorem ListsChildren.of_contains {β : Type} {objects' : Dict β} {children : List Listed}
    (h : ListsChildren objects folder children)
    (hcontains : ∀ key, objects'.contains key = objects.contains key) :
    ListsChildren objects' folder children where
  sorted := h.sorted
  folder_iff name := by simp only [hcontains, h.folder_iff name]
  object_iff name := by simp only [hcontains, h.object_iff name]

/-! ## The listing of a store in memory -/

namespace Memory

theorem child?_append_folder (hname : '/' ∉ name.toList) (rest : String) :
    child? folder (folder ++ name ++ "/" ++ rest) = some ⟨name, .folder⟩ := by
  apply @child?_eq_folder folder _ name rest hname
  simp

theorem child?_append_object (hne : name ≠ "") (hname : '/' ∉ name.toList) :
    child? folder (folder ++ name) = some ⟨name, .object⟩ := by
  have hcut : Text.cut? '/' name = none := by
    rw [Text.cut?, Option.map_eq_none_iff]
    cases h : Text.cutChars? '/' name.toList with
    | none => rfl
    | some parts =>
      obtain ⟨before, behind⟩ := parts
      rw [Text.cutChars?_eq_some] at h
      exact absurd (h.1 ▸ by simp) hname
  rw [child?, Text.after?_append]
  split
  · next he => cases he
  · next he => exact absurd (Option.some.inj he) hne
  · next he =>
    cases he
    rw [hcut]

theorem child?_eq_some {line : Listed} (h : child? folder key = some line) :
    '/' ∉ line.name.toList ∧
      (line.kind = .folder ∧ (∃ rest, key = folder ++ line.name ++ "/" ++ rest) ∨
        line.kind = .object ∧ line.name ≠ "" ∧ key = folder ++ line.name) := by
  rw [child?] at h
  split at h
  · cases h
  · cases h
  · next rest hne hafter =>
    obtain rfl := Text.after?_eq_some.1 hafter
    split at h
    · next name behind hcut =>
      cases h
      obtain ⟨⟨front, back⟩, hchars, he⟩ := Option.map_eq_some_iff.1 hcut
      cases he
      obtain ⟨hrest, hmark⟩ := Text.cutChars?_eq_some.1 hchars
      refine ⟨by simpa using hmark, .inl ⟨rfl, String.ofList back, ?_⟩⟩
      rw [← String.toList_inj]
      simp [hrest]
    · next hcut =>
      cases h
      refine ⟨?_, .inr ⟨rfl, fun he => hne he, rfl⟩⟩
      intro hmem
      obtain ⟨front, back, hsplit, hmark⟩ := List.eq_append_cons_of_mem hmem
      rw [Text.cut?, Text.cutChars?_eq_some.2 ⟨hsplit, hmark⟩] at hcut
      cases hcut

theorem child?_iff_folder : child? folder key = some ⟨name, .folder⟩ ↔
    '/' ∉ name.toList ∧ ∃ rest, key = folder ++ name ++ "/" ++ rest := by
  constructor
  · intro h
    obtain ⟨hname, ⟨-, hkey⟩ | ⟨hkind, -⟩⟩ := child?_eq_some h
    · exact ⟨hname, hkey⟩
    · cases hkind
  · rintro ⟨hname, rest, rfl⟩
    exact child?_append_folder hname rest

theorem child?_iff_object : child? folder key = some ⟨name, .object⟩ ↔
    name ≠ "" ∧ '/' ∉ name.toList ∧ key = folder ++ name := by
  constructor
  · intro h
    obtain ⟨hname, ⟨hkind, -⟩ | ⟨-, hne, hkey⟩⟩ := child?_eq_some h
    · cases hkind
    · exact ⟨hne, hname, hkey⟩
  · rintro ⟨hne, hname, rfl⟩
    exact child?_append_object hne hname

/-- A name is missing in a listing when no line has it. -/
theorem get?_noteChildren_eq_none (lines : List Listed) (listing : Dict EntryKind) :
    (lines.foldl noteChild listing).get? name = none ↔
      listing.get? name = none ∧ ∀ line ∈ lines, line.name ≠ name := by
  induction lines generalizing listing with
  | nil => simp
  | cons line lines ih =>
    obtain ⟨n, kind⟩ := line
    have hnote : (noteChild listing ⟨n, kind⟩).get? name = none ↔
        listing.get? name = none ∧ n ≠ name := by
      by_cases hn : n = name
      · subst hn
        cases kind with
        | folder => simp [noteChild_folder, Dict.get?_insert]
        | object =>
          rw [noteChild]
          dsimp only
          split
          · next hthere =>
            obtain ⟨v, hv⟩ := Dict.contains_eq_true.1 hthere
            simp [hv]
          · simp [Dict.get?_insert]
      · cases kind with
        | folder => simp [noteChild_folder, Dict.get?_insert, hn]
        | object =>
          rw [noteChild]
          dsimp only
          split
          · simp [hn]
          · simp [Dict.get?_insert, hn]
    rw [List.foldl_cons, ih, hnote, List.forall_mem_cons, and_assoc]

variable {objects : Objects} {path : String}

theorem mem_list {line : Listed} : line ∈ list objects path ↔
    ((objects.keys.filterMap (child? (folderKey path))).foldl noteChild {}).get? line.name =
      some line.kind := by
  rw [list, List.mem_map, Dict.get?_eq_some]
  constructor
  · rintro ⟨e, he, rfl⟩
    exact he
  · intro h
    exact ⟨_, h, rfl⟩

/-- The objects of a listing are those that a key ends with and none goes on behind. -/
theorem object_mem_list : ⟨name, .object⟩ ∈ list objects path ↔
    (∃ key ∈ objects.keys, child? (folderKey path) key = some ⟨name, .object⟩) ∧
      ∀ key ∈ objects.keys, child? (folderKey path) key ≠ some ⟨name, .folder⟩ := by
  have hempty : (({} : Dict EntryKind).get? name) = none := rfl
  have hfolder := @get?_noteChildren name (objects.keys.filterMap (child? (folderKey path))) {}
  have hnone := @get?_noteChildren_eq_none name
    (objects.keys.filterMap (child? (folderKey path))) {}
  simp only [hempty, reduceCtorEq, false_or, true_and, List.mem_filterMap] at hfolder hnone
  rw [mem_list]
  cases hget : ((objects.keys.filterMap (child? (folderKey path))).foldl noteChild {}).get? name with
  | none =>
    refine iff_of_false nofun ?_
    rintro ⟨⟨key, hkey, hchild⟩, -⟩
    exact hnone.1 hget _ ⟨key, hkey, hchild⟩ rfl
  | some kind =>
    cases kind with
    | folder =>
      obtain ⟨key, hkey, hchild⟩ := hfolder.1 hget
      exact iff_of_false nofun fun h => h.2 key hkey hchild
    | object =>
      refine iff_of_true rfl ⟨?_, ?_⟩
      · by_contra hobject
        have hall := hnone.not.1 (by rw [hget]; nofun)
        apply hall
        rintro ⟨n, kind⟩ ⟨key, hkey, hchild⟩ rfl
        cases kind with
        | folder =>
          rw [hfolder.2 ⟨key, hkey, hchild⟩] at hget
          cases hget
        | object => exact hobject ⟨key, hkey, hchild⟩
      · intro key hkey hchild
        rw [hfolder.2 ⟨key, hkey, hchild⟩] at hget
        cases hget

theorem mem_keys {key : String} : key ∈ objects.keys ↔ objects.contains key = true :=
  Dict.mem_keys.trans Dict.contains_eq_true.symm

theorem listsChildren_list (objects : Objects) (path : String) :
    ListsChildren objects (folderKey path) (list objects path) where
  sorted := names_list_sorted objects path
  folder_iff name := by
    rw [folder_mem_list]
    simp only [child?_iff_folder]
    constructor
    · rintro ⟨key, bytes, hget, hname, rest, rfl⟩
      exact ⟨hname, rest, Dict.contains_eq_true.2 ⟨bytes, hget⟩⟩
    · rintro ⟨hname, rest, hthere⟩
      obtain ⟨bytes, hget⟩ := Dict.contains_eq_true.1 hthere
      exact ⟨_, bytes, hget, hname, rest, rfl⟩
  object_iff name := by
    rw [object_mem_list]
    simp only [child?_iff_folder, child?_iff_object, mem_keys, ne_eq]
    constructor
    · rintro ⟨⟨key, hthere, hne, hname, rfl⟩, hnone⟩
      refine ⟨hne, hname, hthere, fun rest => ?_⟩
      exact Bool.eq_false_iff.2 fun hrest => hnone _ hrest ⟨hname, rest, rfl⟩
    · rintro ⟨hne, hname, hthere, hnone⟩
      refine ⟨⟨_, hthere, hne, hname, rfl⟩, ?_⟩
      rintro key hkey ⟨-, rest, rfl⟩
      rw [hnone rest] at hkey
      cases hkey

/-! ## The folder of a path -/

/-- What the keys below a path begin with: the path without slashes around it, and one slash; nothing,
where the path has only slashes. -/
inductive NamesFolder (path : String) : String → Prop
  | root (slashes : ∀ c ∈ path.toList, c = '/') : NamesFolder path ""
  | below {left stem right : String} (form : path = left ++ stem ++ right)
    (slashes : ∀ c ∈ left.toList ++ right.toList, c = '/') (ne_empty : stem ≠ "")
    (trimmed : Text.Trimmed (· == '/') stem.toList) : NamesFolder path (stem ++ "/")

theorem trimBoth_eq_iff {stem : String} : Text.trimBoth '/' path = stem ↔
    Text.Trimmed (· == '/') stem.toList ∧ ∃ left right : String, path = left ++ stem ++ right ∧
      ∀ c ∈ left.toList ++ right.toList, c = '/' := by
  simp only [Text.trimBoth, Text.ofList_dropEnds_eq_iff, beq_iff_eq, List.forall_mem_append]

theorem folderKey_eq_iff {folder : String} :
    folderKey path = folder ↔ NamesFolder path folder := by
  constructor
  · rintro rfl
    obtain ⟨htrimmed, left, right, hpath, hslashes⟩ :=
      trimBoth_eq_iff.1 (@rfl _ (Text.trimBoth '/' path))
    by_cases hempty : Text.trimBoth '/' path = ""
    · rw [folderKey, if_pos hempty]
      refine .root fun c hc => hslashes c ?_
      rwa [hpath, hempty, String.append_empty, String.toList_append] at hc
    · rw [folderKey, if_neg hempty]
      exact .below hpath hslashes hempty htrimmed
  · intro h
    cases h with
    | root slashes =>
      have hempty : Text.trimBoth '/' path = "" :=
        trimBoth_eq_iff.2 ⟨by decide, path, "", by simp, by simpa using slashes⟩
      rw [folderKey, if_pos hempty]
    | below form slashes ne_empty trimmed =>
      have hstem := trimBoth_eq_iff.2 ⟨trimmed, _, _, form, slashes⟩
      rw [folderKey, hstem, if_neg ne_empty]

/-- A store in memory answers a listing with the children of the folder that the path names, and
stays as it is. -/
theorem answer_list_iff (objects objects' : Objects) (path : String)
    (reply : effects.Reply (Request.list path)) :
    answer (.list path) objects = (reply, objects') ↔ objects' = objects ∧
      ∃ folder children, NamesFolder path folder ∧ ListsChildren objects folder children ∧
        reply = .ok children := by
  have hlists := listsChildren_list objects path
  constructor
  · intro h
    cases h
    exact ⟨rfl, _, _, folderKey_eq_iff.1 rfl, hlists, rfl⟩
  · rintro ⟨rfl, folder, children, hfolder, hchildren, rfl⟩
    obtain rfl := folderKey_eq_iff.2 hfolder
    rw [hchildren.unique hlists]
    rfl

/-- A part that keys go on behind is a folder, also where an object ends with it or it is empty. -/
example : list ((((Dict.empty.insert "a/b" ⟨#[]⟩).insert "a/b/c" ⟨#[]⟩).insert "a//d" ⟨#[]⟩).insert
    "ab/x" ⟨#[]⟩) "//a/" = [⟨"", .folder⟩, ⟨"b", .folder⟩] := by
  decide

end Memory

/-! ## Lines -/

/-- The kind as a server writes it. -/
def EntryKind.word : EntryKind → String
  | .object => "object"
  | .folder => "directory"

/-- A text that spells an object with the name and the kind of a child, in either order. -/
def Describes (child : Listed) (cs : List Char) : Prop :=
  Json.Spells (Json.object [("name", .string child.name), ("type", .string child.kind.word)]).tokens
      cs ∨
    Json.Spells (Json.object [("type", .string child.kind.word), ("name", .string child.name)]).tokens
      cs

/-- A line for a child: the object on it, from brace to brace, and a margin. -/
inductive Line (child : Listed) : List Char → Prop
  | intro {before inner after : List Char} (describes : Describes child ('{' :: (inner ++ ['}'])))
    (single : '\n' ∉ inner) (margin : ∀ c ∈ before ++ after, c = ' ' ∨ c = '\t' ∨ c = '\r') :
    Line child (before ++ '{' :: (inner ++ '}' :: after))

/-- One line for each child. The last line may end without a line feed. -/
inductive Lines : List Listed → List Char → Prop
  | nil : Lines [] []
  | last {child : Listed} {line : List Char} (first : Line child line) : Lines [child] line
  | cons {child : Listed} {children : List Listed} {line text : List Char} (first : Line child line)
    (rest : Lines children text) : Lines (child :: children) (line ++ '\n' :: text)

namespace Endpoint

variable {child : Listed} {children : List Listed} {line text : List Char}

theorem listed?_of_describes {cs : List Char} (h : Describes child cs) :
    (Json.tokens? cs).bind listed? = some child := by
  obtain ⟨name, kind⟩ := child
  rcases h with h | h <;> rw [Json.tokens?_of_spells h] <;> cases kind <;> rfl

theorem blank_of_margin {c : Char} (h : c = ' ' ∨ c = '\t' ∨ c = '\r') :
    Text.isBlank c = true := by
  rcases h with rfl | rfl | rfl <;> decide

theorem trim_margin {before inner after : List Char}
    (h : ∀ c ∈ before ++ after, c = ' ' ∨ c = '\t' ∨ c = '\r') :
    Text.trim (String.ofList (before ++ '{' :: (inner ++ '}' :: after))) =
      String.ofList ('{' :: (inner ++ ['}'])) := by
  have hopen : Text.isBlank '{' = false := by decide
  have hclose : Text.isBlank '}' = false := by decide
  have hbefore : ∀ c ∈ before, Text.isBlank c = true := fun c hc =>
    blank_of_margin (h c (List.mem_append_left _ hc))
  have hafter : ∀ c ∈ after.reverse, Text.isBlank c = true := fun c hc =>
    blank_of_margin (h c (List.mem_append_right _ (List.mem_reverse.1 hc)))
  have hreverse : ('{' :: (inner ++ '}' :: after)).reverse =
      after.reverse ++ '}' :: (inner.reverse ++ ['{']) := by simp
  rw [Text.trim, String.toList_ofList, Text.dropEnds, List.dropWhile_append_of_pos hbefore,
    List.dropWhile_cons_of_neg (by simp [hopen]), Text.dropEnd, hreverse,
    List.dropWhile_append_of_pos hafter, List.dropWhile_cons_of_neg (by simp [hclose])]
  simp

theorem readLine_of_line (h : Line child line) :
    Text.trim (String.ofList line) ≠ "" ∧ readLine (Text.trim (String.ofList line)) = .ok child := by
  obtain ⟨describes, single, margin⟩ := h
  rw [trim_margin margin]
  refine ⟨by simp, ?_⟩
  rw [readLine, String.toList_ofList, listed?_of_describes describes]

theorem not_mem_of_line (h : Line child line) : '\n' ∉ line := by
  obtain ⟨describes, single, margin⟩ := h
  intro hmem
  simp only [List.mem_append, List.mem_cons] at hmem
  rcases hmem with hmem | hmem | hmem | hmem | hmem
  · exact absurd (margin '\n' (List.mem_append_left _ hmem)) (by decide)
  · cases hmem
  · exact single hmem
  · cases hmem
  · exact absurd (margin '\n' (List.mem_append_right _ hmem)) (by decide)

theorem readListing_of_line {rest : List String} (h : Line child line) :
    (((String.ofList line :: rest).map Text.trim).filter (· ≠ "")).mapM readLine =
      (((rest.map Text.trim).filter (· ≠ "")).mapM readLine).map (child :: ·) := by
  obtain ⟨hne, hread⟩ := readLine_of_line h
  rw [List.map_cons, List.filter_cons_of_pos (by simpa using hne), List.mapM_cons, hread]
  rfl

theorem readListing_of_lines (h : Lines children text) :
    readListing (String.ofList text) = .ok children := by
  rw [readListing, Text.segments, String.toList_ofList]
  induction h with
  | nil => rfl
  | last first =>
    rw [List.splitOn_eq_singleton (not_mem_of_line first), List.map_singleton,
      readListing_of_line first]
    rfl
  | cons first rest ih =>
    rw [List.splitOn_append_cons_self_of_not_mem (not_mem_of_line first), List.map_cons,
      readListing_of_line first, ih]
    rfl

theorem head?_of_line {rest : List Char} (h : Line child line) :
    (line ++ rest).head? ≠ some '\uFEFF' := by
  obtain @⟨before, inner, after, describes, single, margin⟩ := h
  cases before with
  | nil => simp
  | cons c before =>
    intro he
    cases he
    exact absurd (margin '\uFEFF' (by simp)) (by decide)

theorem bodyText_of_lines (h : Lines children text) :
    bodyText (String.ofList text).toUTF8 = String.ofList text := by
  have hhead : text.head? ≠ some '\uFEFF' := by
    cases h with
    | nil => nofun
    | last first =>
      rw [← List.append_nil text]
      exact head?_of_line first
    | cons first rest => exact head?_of_line first
  rw [bodyText, Text.lossy_toUTF8, String.toList_ofList]
  split
  · exact absurd rfl hhead
  · rfl

end Endpoint

end ClusterLedger.Store
