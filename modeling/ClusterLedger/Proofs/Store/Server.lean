import ClusterLedger.Proofs.Store.Address
import ClusterLedger.Proofs.Store.Listing

/-!
# Servers of objects

What is asked of a server behind which a store works, and one server that does it: it numbers its
writes and marks every object with the number of the write.
-/
namespace ClusterLedger.Store

/-! ## Plain keys -/

/-- A character of a plain key. -/
def isPlainChar (c : Char) : Bool :=
  Text.isAsciiAlphanumeric c || c = '-' || c = '_' || c = '.'

/-- A part of a plain key: letters, digits and a few marks, but not a way to another folder. -/
structure IsPlainSegment (s : String) : Prop where
  nonempty : s ≠ ""
  chars : ∀ c ∈ s.toList, isPlainChar c = true
  here : s ≠ "."
  up : s ≠ ".."

/-- Plain segments joined by slashes. -/
inductive IsPlainKey : String → Prop
  | segment {s : String} (first : IsPlainSegment s) : IsPlainKey s
  | cons {s key : String} (first : IsPlainSegment s) (rest : IsPlainKey key) :
    IsPlainKey (s ++ "/" ++ key)

namespace IsPlainKey

variable {key : String}

theorem segment_ends {s : String} (h : IsPlainSegment s) :
    (∃ c cs, s.toList = c :: cs ∧ c ≠ '/') ∧ ∃ cs c, s.toList = cs ++ [c] ∧ c ≠ '/' := by
  have hne : s.toList ≠ [] := fun hnil => h.nonempty (String.toList_eq_nil_iff.1 hnil)
  have hslash {c : Char} (hc : c ∈ s.toList) : c ≠ '/' := by
    rintro rfl
    exact absurd (h.chars '/' hc) (by decide)
  constructor
  · obtain ⟨c, cs, hcs⟩ := List.exists_cons_of_ne_nil hne
    exact ⟨c, cs, hcs, hslash (hcs ▸ List.mem_cons_self)⟩
  · obtain ⟨cs, c, hcs⟩ := List.eq_nil_or_concat s.toList |>.resolve_left hne
    exact ⟨cs, c, by simpa using hcs, hslash (by rw [hcs]; simp)⟩

theorem begins (h : IsPlainKey key) : ∃ c cs, key.toList = c :: cs ∧ c ≠ '/' := by
  cases h with
  | segment first => exact (segment_ends first).1
  | cons first rest =>
    obtain ⟨c, cs, hcs, hc⟩ := (segment_ends first).1
    exact ⟨c, _, by rw [String.toList_append, String.toList_append, hcs]; rfl, hc⟩

theorem ends (h : IsPlainKey key) : ∃ cs c, key.toList = cs ++ [c] ∧ c ≠ '/' := by
  induction h with
  | segment first => exact (segment_ends first).2
  | @cons s key first rest ih =>
    obtain ⟨cs, c, hcs, hc⟩ := ih
    exact ⟨s.toList ++ '/' :: cs, c, by simp [hcs], hc⟩

theorem not_mem (h : IsPlainKey key) {c : Char} (hc : isPlainChar c = false) (hslash : c ≠ '/') :
    c ∉ key.toList := by
  induction h with
  | segment first =>
    intro hmem
    rw [first.chars c hmem] at hc
    cases hc
  | cons first rest ih =>
    have hfirst : c ∉ _ := fun hmem => Bool.noConfusion ((first.chars c hmem).symm.trans hc)
    simp [hfirst, hslash, ih]

theorem ne_empty (h : IsPlainKey key) : key ≠ "" := by
  rintro rfl
  obtain ⟨c, cs, hcs, -⟩ := h.begins
  cases hcs

/-- Slashes behind a plain key are trimmed, and nothing else. -/
theorem trimBoth_eq (h : IsPlainKey key) (n : Nat) :
    Text.trimBoth '/' (String.ofList (key.toList ++ List.replicate n '/')) = key := by
  obtain ⟨c, cs, hcs, hc⟩ := h.begins
  obtain ⟨ds, d, hds, hd⟩ := h.ends
  have hstart (rest : List Char) :
      (key.toList ++ rest).dropWhile (· == '/') = key.toList ++ rest := by
    rw [hcs, List.cons_append, List.dropWhile_cons_of_neg (by simpa using hc)]
  have hend : Text.dropEnd (· == '/') (key.toList ++ List.replicate n '/') = key.toList := by
    rw [Text.dropEnd, hds, List.reverse_append, List.reverse_replicate,
      List.dropWhile_append_of_pos (by simp), List.reverse_append, List.reverse_singleton,
      List.singleton_append, List.dropWhile_cons_of_neg (by simpa using hd)]
    simp
  rw [Text.trimBoth, String.toList_ofList, Text.dropEnds, hstart, hend, String.ofList_toList]

theorem folderKey_eq (h : IsPlainKey key) : folderKey key = key ++ "/" := by
  have htrim := h.trimBoth_eq 0
  rw [List.replicate_zero, List.append_nil, String.ofList_toList] at htrim
  rw [folderKey, htrim]
  exact if_neg h.ne_empty

theorem folderKey_folder (h : IsPlainKey key) : folderKey (key ++ "/") = key ++ "/" := by
  have hslash : String.ofList (key.toList ++ List.replicate 1 '/') = key ++ "/" := by
    rw [← String.toList_inj]
    simp
  have htrim := h.trimBoth_eq 1
  rw [hslash] at htrim
  rw [folderKey, htrim]
  exact if_neg h.ne_empty

end IsPlainKey

/-- What the keys of a folder begin with, where the folder is named by a plain key or is the place of
all objects. -/
inductive IsFolder : String → Prop
  | all : IsFolder ""
  | below {key : String} (h : IsPlainKey key) : IsFolder (key ++ "/")

/-! ## What is asked of a server -/

/-- An object, and the mark of its version where the server marks versions. -/
structure Stored where
  bytes : ByteArray
  etag : Option String

/-- The objects that a store has. -/
def contents (objects : Dict Stored) : Dict ByteArray :=
  objects.mapValues fun _ o => o.bytes

theorem get?_contents (objects : Dict Stored) (key : String) :
    (contents objects).get? key = (objects.get? key).map Stored.bytes :=
  Dict.get?_mapValues _ _ _

theorem contents_insert (objects : Dict Stored) (key : String) (o : Stored) :
    contents (objects.insert key o) = (contents objects).insert key o.bytes :=
  Dict.mapValues_insert _ _ _ _

theorem contents_erase (objects : Dict Stored) (key : String) :
    contents (objects.erase key) = (contents objects).erase key :=
  Dict.mapValues_erase _ _ _

theorem contains_contents (objects : Dict Stored) (key : String) :
    (contents objects).contains key = objects.contains key := by
  rw [Dict.contains, Dict.contains, get?_contents, Option.isSome_map]

/-- A request arrives at a path below the endpoint, with the token of the endpoint. -/
structure Endpoint.Addresses (e : Endpoint) (q : Http.Request) (path : String) : Prop where
  resource : q.resource = e.baseUrl ++ "/" ++ path
  authorization : q.authorization = e.token.map ("Bearer " ++ ·)

/-- A request for an object or its headers, without conditions. -/
structure IsRead (q : Http.Request) : Prop where
  method : q.method = .get ∨ q.method = .head
  ifMatch : q.ifMatch = none
  ifNoneMatch : q.ifNoneMatch = none

/-- A request to write an object. -/
structure IsWrite (q : Http.Request) (bytes : ByteArray) : Prop where
  method : q.method = .put
  ifMatch : q.ifMatch = none
  body : q.body = some bytes

/-- A request to remove an object. -/
structure IsRemoval (q : Http.Request) : Prop where
  method : q.method = .delete
  ifNoneMatch : q.ifNoneMatch = none

/-- A server that stores objects by path and does as it is asked. While requests come one after
another, it does not matter whether and how it marks versions. -/
structure Conforms {σ : Type} (e : Endpoint) (serve : Http.Request → σ → Http.Response × σ)
    (stored : σ → Dict Stored) : Prop where
  missing : ∀ {s q key}, IsPlainKey key → e.Addresses q key → IsRead q →
    (stored s).get? key = none →
    (serve q s).1.status = 404 ∧ stored (serve q s).2 = stored s
  found : ∀ {s q key o}, IsPlainKey key → e.Addresses q key → IsRead q →
    (stored s).get? key = some o →
    (serve q s).1.status = 200 ∧
      (q.method = .get → (serve q s).1.body = some o.bytes ∧ (serve q s).1.etag = o.etag) ∧
      stored (serve q s).2 = stored s
  written : ∀ {s q key bytes}, IsPlainKey key → e.Addresses q key → IsWrite q bytes →
    q.ifNoneMatch = none ∨ q.ifNoneMatch = some "*" ∧ (stored s).get? key = none →
    (serve q s).1.isSuccess = true ∧
      ∃ etag, stored (serve q s).2 = (stored s).insert key ⟨bytes, etag⟩
  taken : ∀ {s q key bytes o}, IsPlainKey key → e.Addresses q key → IsWrite q bytes →
    q.ifNoneMatch = some "*" → (stored s).get? key = some o →
    (serve q s).1.status = 412 ∧ stored (serve q s).2 = stored s
  removed : ∀ {s q key o}, IsPlainKey key → e.Addresses q key → IsRemoval q →
    (stored s).get? key = some o → q.ifMatch = none ∨ q.ifMatch = o.etag →
    (serve q s).1.isSuccess = true ∧ stored (serve q s).2 = (stored s).erase key
  changed : ∀ {s q key o version}, IsPlainKey key → e.Addresses q key → IsRemoval q →
    (stored s).get? key = some o → q.ifMatch = some version → o.etag ≠ some version →
    (serve q s).1.status = 412 ∧ stored (serve q s).2 = stored s
  gone : ∀ {s q key}, IsPlainKey key → e.Addresses q key → IsRemoval q →
    (stored s).get? key = none →
    ((serve q s).1.status = 404 ∨ q.ifMatch ≠ none ∧ (serve q s).1.status = 412) ∧
      stored (serve q s).2 = stored s
  listed : ∀ {s q folder}, IsFolder folder → e.Addresses q folder → IsRead q → q.method = .get →
    stored (serve q s).2 = stored s ∧ ∃ children, ListsChildren (stored s) folder children ∧
      (children = [] → (serve q s).1.status = 404) ∧
      (children ≠ [] → (serve q s).1.status = 200 ∧ ∃ text, Lines children text ∧
        (serve q s).1.body = some (String.ofList text).toUTF8)

/-! ## A server that numbers its writes -/

/-- The objects of a server, and how often it has written. -/
structure Shelf where
  objects : Dict Stored
  writes : Nat

namespace Shelf

/-- The line for a child. -/
def line (child : Listed) : List Char :=
  '{' :: (Json.quoted "name" ++ ':' :: (Json.quoted child.name ++ ',' ::
    (Json.quoted "type" ++ ':' :: (Json.quoted child.kind.word ++ ['}']))))

def answerRead (shelf : Shelf) (key : String) : Http.Response :=
  match shelf.objects.get? key with
  | none => { status := 404 }
  | some o => { status := 200, etag := o.etag, body := some o.bytes }

def answerList (shelf : Shelf) (folder : String) : Http.Response :=
  match Memory.list (contents shelf.objects) folder with
  | [] => { status := 404 }
  | children =>
    { status := 200
      body := some (String.ofList (children.flatMap fun child => line child ++ ['\n'])).toUTF8 }

def write (shelf : Shelf) (key : String) (bytes : ByteArray) : Shelf where
  objects := shelf.objects.insert key ⟨bytes, some (String.ofList ('v' :: Text.digits shelf.writes))⟩
  writes := shelf.writes + 1

/-- What is done with a request for a key. -/
def serveKey (q : Http.Request) (key : String) (shelf : Shelf) : Http.Response × Shelf :=
  match q.method with
  | .get | .head => (shelf.answerRead key, shelf)
  | .put =>
    if q.ifNoneMatch = some "*" ∧ shelf.objects.contains key = true then ({ status := 412 }, shelf)
    else ({ status := 201 }, shelf.write key (q.body.getD ByteArray.empty))
  | .delete => match shelf.objects.get? key with
    | none => ({ status := 404 }, shelf)
    | some o =>
      if q.ifMatch = none ∨ q.ifMatch = o.etag then
        ({ status := 204 }, { shelf with objects := shelf.objects.erase key })
      else ({ status := 412 }, shelf)

/-- What is done with a request for a path. -/
def servePath (q : Http.Request) (path : String) (shelf : Shelf) : Http.Response × Shelf :=
  if path = "" ∨ path.toList.getLast? = some '/' then (shelf.answerList path, shelf)
  else serveKey q path shelf

/-- The server of an endpoint. -/
def serve (e : Endpoint) (q : Http.Request) (shelf : Shelf) : Http.Response × Shelf :=
  if q.authorization ≠ e.token.map ("Bearer " ++ ·) then ({ status := 401 }, shelf)
  else match Text.after? (e.baseUrl ++ "/") q.resource with
    | none => ({ status := 404 }, shelf)
    | some path => servePath q path shelf

variable {e : Endpoint} {q : Http.Request} {key path : String} {shelf : Shelf}

theorem serve_eq (h : e.Addresses q path) : serve e q shelf = servePath q path shelf := by
  rw [serve, if_neg (not_not_intro h.authorization), h.resource, Text.after?_append]

theorem serve_key (hkey : IsPlainKey key) (h : e.Addresses q key) :
    serve e q shelf = serveKey q key shelf := by
  obtain ⟨cs, c, hcs, hc⟩ := hkey.ends
  rw [serve_eq h, servePath, if_neg]
  rintro (rfl | hlast)
  · simp at hcs
  · rw [hcs] at hlast
    simp at hlast
    exact hc hlast

/-! ### Keys -/

theorem answerRead_missing (h : shelf.objects.get? key = none) :
    shelf.answerRead key = { status := 404 } := by
  rw [answerRead, h]

theorem answerRead_found {o : Stored} (h : shelf.objects.get? key = some o) :
    shelf.answerRead key = { status := 200, etag := o.etag, body := some o.bytes } := by
  rw [answerRead, h]

theorem serveKey_read (h : IsRead q) : serveKey q key shelf = (shelf.answerRead key, shelf) := by
  rw [serveKey]
  rcases h.method with hmethod | hmethod <;> rw [hmethod]

theorem serveKey_write {bytes : ByteArray} (h : IsWrite q bytes) : serveKey q key shelf =
    if q.ifNoneMatch = some "*" ∧ shelf.objects.contains key = true then ({ status := 412 }, shelf)
    else ({ status := 201 }, shelf.write key bytes) := by
  rw [serveKey, h.method, h.body]
  rfl

theorem serveKey_removal (h : IsRemoval q) : serveKey q key shelf =
    match shelf.objects.get? key with
    | none => ({ status := 404 }, shelf)
    | some o =>
      if q.ifMatch = none ∨ q.ifMatch = o.etag then
        ({ status := 204 }, { shelf with objects := shelf.objects.erase key })
      else ({ status := 412 }, shelf) := by
  rw [serveKey, h.method]

/-! ### Folders -/

theorem line_of_child (child : Listed) : Line child (line child) := by
  have hspells : Json.Spells
      (Json.object [("name", .string child.name), ("type", .string child.kind.word)]).tokens
      (line child) :=
    .mark rfl (Json.spells_quoted _ (.mark rfl (Json.spells_quoted _ (.mark rfl
      (Json.spells_quoted _ (.mark rfl (Json.spells_quoted _ (.mark rfl .nil))))))))
  have hshape : line child = [] ++ '{' :: ((Json.quoted "name" ++ ':' :: (Json.quoted child.name ++
      ',' :: (Json.quoted "type" ++ ':' :: Json.quoted child.kind.word))) ++ '}' :: []) := by
    simp [line]
  rw [hshape] at hspells ⊢
  refine .intro (.inl hspells) ?_ nofun
  simp [Json.newline_not_mem_quoted]

theorem lines_of_children (children : List Listed) :
    Lines children (children.flatMap fun child => line child ++ ['\n']) := by
  induction children with
  | nil => exact .nil
  | cons child children ih =>
    rw [List.flatMap_cons, List.append_assoc]
    exact .cons (line_of_child child) ih

theorem folderKey_of_isFolder {folder : String} (h : IsFolder folder) :
    folderKey folder = folder := by
  cases h with
  | all => decide
  | below h => exact h.folderKey_folder

theorem serve_folder {folder : String} (hfolder : IsFolder folder) (h : e.Addresses q folder) :
    serve e q shelf = (shelf.answerList folder, shelf) := by
  rw [serve_eq h, servePath, if_pos]
  cases hfolder with
  | all => exact .inl rfl
  | below h => exact .inr (by simp)

theorem conforms_serve (e : Endpoint) : Conforms e (serve e) objects where
  missing hkey haddress hread hget := by
    rw [serve_key hkey haddress, serveKey_read hread, answerRead_missing hget]
    exact ⟨rfl, rfl⟩
  found hkey haddress hread hget := by
    rw [serve_key hkey haddress, serveKey_read hread, answerRead_found hget]
    exact ⟨rfl, fun _ => ⟨rfl, rfl⟩, rfl⟩
  written hkey haddress hwrite hfree := by
    rw [serve_key hkey haddress, serveKey_write hwrite, if_neg]
    · exact ⟨rfl, _, rfl⟩
    · rintro ⟨hcondition, hthere⟩
      rcases hfree with hnone | ⟨-, hget⟩
      · rw [hnone] at hcondition
        cases hcondition
      · rw [Dict.contains_eq_false.2 hget] at hthere
        cases hthere
  taken hkey haddress hwrite hcondition hget := by
    rw [serve_key hkey haddress, serveKey_write hwrite,
      if_pos ⟨hcondition, Dict.contains_eq_true.2 ⟨_, hget⟩⟩]
    exact ⟨rfl, rfl⟩
  removed hkey haddress hremoval hget hmatch := by
    rw [serve_key hkey haddress, serveKey_removal hremoval, hget]
    dsimp only
    rw [if_pos hmatch]
    exact ⟨rfl, rfl⟩
  changed hkey haddress hremoval hget hversion hne := by
    rw [serve_key hkey haddress, serveKey_removal hremoval, hget]
    dsimp only
    rw [hversion, if_neg]
    · exact ⟨rfl, rfl⟩
    · rintro (hnone | hsame)
      · cases hnone
      · exact hne hsame.symm
  gone hkey haddress hremoval hget := by
    rw [serve_key hkey haddress, serveKey_removal hremoval, hget]
    exact ⟨.inl rfl, rfl⟩
  listed {shelf q folder} hfolder haddress hread hmethod := by
    rw [serve_folder hfolder haddress]
    have hlist := Memory.listsChildren_list (contents shelf.objects) folder
    rw [folderKey_of_isFolder hfolder] at hlist
    refine ⟨rfl, _, hlist.of_contains fun key => (contains_contents _ key).symm, ?_, ?_⟩
    · intro hnone
      rw [answerList, hnone]
    · intro hsome
      obtain ⟨child, rest, hcons⟩ := List.exists_cons_of_ne_nil hsome
      rw [answerList, hcons]
      exact ⟨rfl, _, lines_of_children _, rfl⟩

end Shelf

end ClusterLedger.Store
