import ClusterLedger.Proofs.Document.Codec
import ClusterLedger.Proofs.Json.Grammar
import ClusterLedger.Proofs.Json.Reordered

/-!
# The canonical bytes of a document

Loading bytes and writing the document again gives one form to all the ways in which a document can
be spelled. That form is its own, and nothing of the top level is lost but an empty object of modules.
-/
namespace ClusterLedger

namespace Json

/-- Two texts that spell the same value in two ways: with other white space and other escapes, and
with the members of objects in another order, no key being repeated. -/
def Respelled (b b' : ByteArray) : Prop :=
  ∃ (s s' : String) (v w : Json), b = s.toUTF8 ∧ b' = s'.toUTF8 ∧ Spells v.tokens s.toList ∧
    Spells w.tokens s'.toList ∧ Reordered v w ∧ v.Distinct

theorem parseBytes?_toUTF8 (s : String) : parseBytes? s.toUTF8 = parse? maxDepth s.toList := by
  rw [parseBytes?, Text.fromUTF8?_toUTF8, Option.bind_some]

theorem parse?_of_spells {limit : Nat} {cs : List Char} {v : Json} (h : Spells v.tokens cs) :
    parse? limit cs = if v.depth ≤ limit then some v else none := by
  rw [parse?, tokens?_of_spells h, Option.bind_some, ofTokens?_tokens]

/-- How a value is spelled does not matter to what is read. -/
theorem Respelled.readBytes? {b b' : ByteArray} (h : Respelled b b') :
    readBytes? b' = readBytes? b := by
  obtain ⟨s, s', v, w, rfl, rfl, hs, hs', hreordered, hdistinct⟩ := h
  rw [Json.readBytes?, Json.readBytes?, parseBytes?_toUTF8, parseBytes?_toUTF8,
    parse?_of_spells hs, parse?_of_spells hs', hreordered.depth_eq]
  split
  · rw [Option.map_some, Option.map_some, hreordered.canonical_eq hdistinct]
  · rfl

/-- A value in order is what its fields make. -/
theorem eq_ofFields {v : Json} {fields : Dict Json} (hv : v.Ordered)
    (h : v.fields? = some fields) : v = ofFields fields := by
  cases v with
  | object members =>
    cases h
    rw [ofFields, Dict.toList_ofList hv.1]
  | _ => cases h

end Json

namespace Document

variable {d : Document} {b b' : ByteArray}

/-! ## The value of what was loaded -/

theorem records_eq_ok {es : List (String × Json)} {rs : List (String × Record)}
    (h : records es = .ok rs) (hes : ∀ e ∈ es, e.2.Ordered) :
    es = rs.map fun e => (e.1, Json.ofFields e.2) := by
  induction es generalizing rs with
  | nil =>
    cases h
    rfl
  | cons e rest ih =>
    obtain ⟨name, v⟩ := e
    obtain ⟨hv, hrest⟩ := List.forall_mem_cons.1 hes
    rw [records] at h
    split at h
    · cases h
    · next fields hfields =>
      obtain ⟨rs', hrs, rfl⟩ := Except.map_eq_ok.1 h
      rw [List.map_cons, ← ih hrs hrest, ← Json.eq_ofFields hv hfields]

/-- The modules of a top level are written as they stand in it, unless there are none. -/
theorem modulesOf_eq_ok {fields : Dict Json} {modules : Dict Record}
    (h : modulesOf fields = .ok modules) (hfields : fields.All Json.Ordered)
    (hne : modules.isEmpty = false) :
    fields.get? moduleKey = some (.ofFields (modules.mapValues fun _ => .ofFields)) := by
  rw [modulesOf] at h
  split at h
  · cases h
    cases hne
  next v hv =>
  split at h
  · cases h
  next members hmembers =>
  obtain ⟨rs, hrs, rfl⟩ := Except.map_eq_ok.1 h
  have hordered := hfields _ v hv
  have hvalue := Json.eq_ofFields hordered hmembers
  have hrecords := records_eq_ok hrs fun e he => by
    rw [hvalue] at hordered
    exact Json.orderedMembers_iff.1 hordered.2 e he
  have hsorted : Entries.Sorted rs := by
    have hmap := members.sorted
    rw [hrecords, Entries.Sorted, List.pairwise_map] at hmap
    exact hmap
  have hmembers : members = (Dict.ofList rs).mapValues fun _ => Json.ofFields := by
    refine Dict.ext_toList (hrecords.trans ?_)
    simp only [Dict.mapValues, Dict.toList_ofList hsorted]
  rw [hv, hvalue, ← hmembers]

/-- A document that was loaded has the value that was read, but for an empty object of modules. -/
theorem toJson_of_load (h : load b = .ok d) : ∃ fields : Dict Json,
    Json.readBytes? b = some (.ofFields fields) ∧
      d.toJson = .ofFields (if d.modules.isEmpty then fields.erase moduleKey else fields) := by
  rw [load] at h
  split at h
  · cases h
  next v hv =>
  have hordered := (Json.sound_readBytes? hv).1.ordered
  have h := Except.mapError_eq_ok.1 h
  rw [ofJson] at h
  split at h
  · cases h
  next fields hfields =>
  obtain ⟨modules, hmodules, rfl⟩ := Except.map_eq_ok.1 h
  have hvalue := Json.eq_ofFields hordered hfields
  refine ⟨fields, by rw [hv, hvalue], ?_⟩
  rw [toJson]
  split
  · rfl
  · next hne =>
    have hall : fields.All Json.Ordered := by
      rw [hvalue] at hordered
      exact Dict.all_toList.2 (Json.orderedMembers_iff.1 hordered.2)
    have hmodule := modulesOf_eq_ok hmodules hall (Bool.eq_false_iff.2 hne)
    dsimp only
    rw [Dict.insert_erase, Dict.insert_of_get? hmodule]

/-! ## The canonical form -/

/-- What the bytes of a document, loaded from other bytes, are. -/
structure Canonicalized (b : ByteArray) (d : Document) : Prop where
  reload : load d.bytes = .ok d
  rewrite : (load d.bytes).map bytes = .ok d.bytes
  newline : ∃ body, d.bytes = (String.ofList (body ++ ['}', '\n'])).toUTF8
  sorted : ∃ v, Json.parseBytes? d.bytes = some v ∧
    ∀ members, Json.Inside (.object members) v → members.Pairwise fun x y => Text.BytesLt x.1 y.1
  kept : ∃ before after : Dict Json, Json.readBytes? b = some (.ofFields before) ∧
    Json.readBytes? d.bytes = some (.ofFields after) ∧
      (∀ k, k ≠ moduleKey → after.get? k = before.get? k) ∧
        after.get? moduleKey = if d.modules.isEmpty then none else before.get? moduleKey

theorem text_endsWith (d : Document) : ∃ body, d.text.toList = body ++ ['}', '\n'] := by
  have hobject (members : List (String × Json)) :
      ∃ body, (Json.object members).prettyChars ['\t'] 0 = body ++ ['}'] := by
    cases members with
    | nil => exact ⟨['{'], rfl⟩
    | cons e members =>
      rw [Json.prettyChars]
      exact ⟨_, (List.cons_append ..).symm⟩
  have hvalue : ∃ members, d.toJson.canonical = .object members := by
    rw [toJson]
    split <;> exact ⟨_, rfl⟩
  obtain ⟨members, hmembers⟩ := hvalue
  obtain ⟨body, hbody⟩ := hobject members
  have hindent : ("\t" : String).toList = ['\t'] := rfl
  refine ⟨body, ?_⟩
  rw [text, hmembers, Json.pretty, String.toList_append, String.toList_ofList, hindent, hbody]
  simp

theorem canonicalized (h : load b = .ok d)
    (hfloats : ∀ x, .float x ∈ d.toJson.numbers → (Json.Number.float x).ReadsBack) :
    Canonicalized b d := by
  obtain ⟨hsound, hshallow⟩ := sound_load h
  have hload : load d.bytes = .ok d := by
    rw [load_bytes hsound hfloats, if_pos ((toJson_depth_le hsound).2 hshallow)]
  have hordered := (toJson_sound hsound).ordered
  have hparse := parseBytes?_bytes hsound hfloats
  rw [if_pos ((toJson_depth_le hsound).2 hshallow)] at hparse
  obtain ⟨before, hbefore, hvalue⟩ := toJson_of_load h
  obtain ⟨body, hbody⟩ := text_endsWith d
  refine ⟨hload, by rw [hload]; rfl, ⟨body, ?_⟩, ⟨_, hparse, fun members hinside => ?_⟩,
    ⟨before, if d.modules.isEmpty then before.erase moduleKey else before, hbefore, ?_,
      fun k hk => ?_, ?_⟩⟩
  · rw [bytes, ← hbody, String.ofList_toList]
  · exact (hordered.inside hinside).1.imp Text.lt_iff_bytesLt.1
  · rw [Json.readBytes?, hparse, Option.map_some, Json.canonical_of_ordered _ hordered, hvalue]
  · split
    · rw [Dict.get?_erase, if_neg hk.symm]
    · rfl
  · split
    · rw [Dict.get?_erase, if_pos rfl]
    · rfl

/-- The bytes of a document are a canonical form of the bytes that it was loaded from, and of all
bytes that spell the same. -/
theorem load_canonicalizes (h : load b = .ok d) :
    ((∀ x, .float x ∈ d.toJson.numbers → (Json.Number.float x).ReadsBack) → Canonicalized b d) ∧
      ∀ b', Json.Respelled b b' → load b' = .ok d := by
  refine ⟨canonicalized h, fun b' hb' => ?_⟩
  rw [← h, load, load, hb'.readBytes?]

/-- The modules of a document with one field, which is a fraction. -/
def sampleModules : Json :=
  .object [("m", .object [("x", .number (.float ⟨0x3FF8000000000000⟩))])]

/-- That document, with a text beside its module. -/
def sample : Document :=
  ⟨Dict.empty.insert "m" (Dict.empty.insert "x" (.number (.float ⟨0x3FF8000000000000⟩))),
    Dict.empty.insert "v" (.string "A"), rfl⟩

/-- One way to write the document. -/
def sampleText : String :=
  "\x7b\"v\":\"\\u0041\",\"module\":\x7b\"m\":\x7b\"x\":1.5\x7d\x7d\x7d"

/-- Another way, with the members the other way round. -/
def sampleRespelled : String :=
  " \x7b\"module\" : \x7b\"m\":\x7b\"\\u0078\":1.5\x7d\x7d,\n\"v\": \"A\"\x7d"

theorem load_canonicalizes_sample :
    Canonicalized sampleText.toUTF8 sample ∧ load sampleRespelled.toUTF8 = .ok sample := by
  have hs : Json.Spells (Json.object [("v", .string "A"), ("module", sampleModules)]).tokens
      sampleText.toList :=
    (Json.tokens?_eq_some (by decide)).1 (by decide +kernel)
  have hs' : Json.Spells (Json.object [("module", sampleModules), ("v", .string "A")]).tokens
      sampleRespelled.toList :=
    (Json.tokens?_eq_some (by decide)).1 (by decide +kernel)
  have hload : load sampleText.toUTF8 = .ok sample := by
    rw [load, Json.readBytes?, Json.parseBytes?_toUTF8, Json.parse?_of_spells hs, if_pos (by decide)]
    rfl
  have hfloats : ∀ x, .float x ∈ sample.toJson.numbers → (Json.Number.float x).ReadsBack := by
    have hnumbers : sample.toJson.numbers = [.float ⟨0x3FF8000000000000⟩] := rfl
    rw [hnumbers]
    rintro x hx
    cases List.mem_singleton.1 hx
    decide +kernel
  have hdistinct : (Json.object [("v", .string "A"), ("module", sampleModules)]).Distinct := by
    simp [sampleModules, Json.Distinct, Json.DistinctMembers, Entries.Distinct]
  exact ⟨(load_canonicalizes hload).1 hfloats, (load_canonicalizes hload).2 _
    ⟨_, _, _, _, rfl, rfl, hs, hs', .members (List.Perm.swap ..), hdistinct⟩⟩

end Document

end ClusterLedger
