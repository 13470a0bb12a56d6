import ClusterLedger.Document.Codec
import ClusterLedger.Proofs.Document.Basic
import ClusterLedger.Proofs.Json.RoundTrip
import ClusterLedger.Proofs.Json.Sound
import ClusterLedger.Proofs.Text.Utf8

/-!
# Documents as bytes

The writer accepts any document. The reader refuses what is nested more than `Json.maxDepth` deep,
and around the fields of a module there are three objects already.
-/
namespace ClusterLedger

/-! ## Maps of values -/

namespace Json

variable {fields : Dict Json}

theorem depth_ofFields_le {n : Nat} :
    (ofFields fields).depth ≤ n + 1 ↔ fields.All fun v => v.depth ≤ n := by
  rw [ofFields, depth, Nat.add_le_add_iff_right, depthMembers_le, Dict.all_toList]

theorem numbers_ofFields {Q : Number → Prop} (h : fields.All fun v => ∀ n ∈ v.numbers, Q n) :
    ∀ n ∈ (ofFields fields).numbers, Q n := by
  intro n hn
  obtain ⟨e, he, hn⟩ := mem_numbersMembers.1 hn
  exact Dict.all_toList.1 h e he n hn

theorem sound_ofFields (h : fields.All Sound) : (ofFields fields).Sound where
  ordered := ⟨fields.sorted, orderedMembers_iff.2 fun e he => (Dict.all_toList.1 h e he).ordered⟩
  inRange := numbers_ofFields (h.imp fun _ hv => hv.inRange)

/-- The fields of an object are sound when it is, and less deep. -/
theorem fields?_all {v : Json} (h : v.fields? = some fields) {n : Nat} (hv : v.Sound)
    (hn : v.depth ≤ n + 1) : fields.All fun w => w.Sound ∧ w.depth ≤ n := by
  cases v with
  | object members =>
    cases h
    refine Dict.all_ofList fun e he => ⟨⟨?_, fun x hx => ?_⟩, ?_⟩
    · exact orderedMembers_iff.1 hv.ordered.2 e he
    · exact hv.inRange x (mem_numbersMembers.2 ⟨e, he, hx⟩)
    · rw [depth, Nat.add_le_add_iff_right] at hn
      exact depthMembers_le.1 hn e he
  | _ => cases h

end Json

namespace Document

variable {d : Document}

/-! ## The value of a document -/

/-- Every field of every module has a property. -/
def FieldsAre (P : Json → Prop) (d : Document) : Prop :=
  d.modules.All fun r => r.All P

/-- A document whose value can be written and read again, but for its depth and its floating-point
numbers. -/
structure Sound (d : Document) : Prop where
  extra : d.extra.All fun v => v.Sound ∧ v.depth + 1 ≤ Json.maxDepth
  fields : d.FieldsAre Json.Sound

/-- The nesting of a field for which the objects around it leave room. -/
def fieldDepth : Nat := Json.maxDepth - 3

/-- Every field is nested so little that the document can be read. -/
def Shallow (d : Document) : Prop :=
  d.FieldsAre fun v => v.depth ≤ fieldDepth

theorem modules_value_sound (h : d.FieldsAre Json.Sound) :
    (Json.ofFields (d.modules.mapValues fun _ => .ofFields)).Sound :=
  Json.sound_ofFields (Dict.all_mapValues (fun _ _ hr => Json.sound_ofFields hr) h)

theorem modules_value_depth :
    (Json.ofFields (d.modules.mapValues fun _ => .ofFields)).depth ≤ fieldDepth + 2 ↔
      d.Shallow := by
  rw [Json.depth_ofFields_le]
  constructor
  · intro h k r hr
    have hvalue := h k (.ofFields r) (by rw [Dict.get?_mapValues, ← module?, module?, hr]; rfl)
    exact Json.depth_ofFields_le.1 hvalue
  · exact Dict.all_mapValues fun _ _ hr => Json.depth_ofFields_le.2 hr

theorem toJson_sound (h : d.Sound) : d.toJson.Sound := by
  have hextra : d.extra.All Json.Sound := h.extra.imp fun v hv => hv.1
  rw [toJson]
  split
  · exact Json.sound_ofFields hextra
  · exact Json.sound_ofFields (hextra.insert (modules_value_sound h.fields))

/-- What stands beside the modules is never too deep, so the fields decide. -/
theorem toJson_depth_le (h : d.Sound) : d.toJson.depth ≤ Json.maxDepth ↔ d.Shallow := by
  have hextra : d.extra.All fun v => v.depth ≤ fieldDepth + 2 := h.extra.imp fun v hv => by
    have := hv.2
    rw [Json.maxDepth] at this
    rw [fieldDepth, Json.maxDepth]
    omega
  rw [toJson]
  split
  · next hempty =>
    have hnone := Dict.isEmpty_eq_true.1 hempty
    refine iff_of_true (Json.depth_ofFields_le.2 hextra) ?_
    rw [Shallow, FieldsAre, hnone]
    exact Dict.all_empty
  · refine Iff.trans Json.depth_ofFields_le (Iff.trans ⟨fun hall => ?_, fun hmodules => ?_⟩
      modules_value_depth)
    · exact hall moduleKey _ (by rw [Dict.get?_insert, if_pos rfl])
    · exact hextra.insert hmodules

/-- The numbers of a document are the numbers of its fields and of what stands beside the modules. -/
theorem toJson_numbers {Q : Json.Number → Prop}
    (hextra : d.extra.All fun v => ∀ n ∈ v.numbers, Q n)
    (hfields : d.FieldsAre fun v => ∀ n ∈ v.numbers, Q n) : ∀ n ∈ d.toJson.numbers, Q n := by
  rw [toJson]
  split
  · exact Json.numbers_ofFields hextra
  · refine Json.numbers_ofFields (hextra.insert (Json.numbers_ofFields ?_))
    exact Dict.all_mapValues (fun _ _ hr => Json.numbers_ofFields hr) hfields

/-! ## Back from the value -/

theorem records_ofFields (rs : List (String × Record)) :
    records (rs.map fun e => (e.1, Json.ofFields e.2)) = .ok rs := by
  induction rs with
  | nil => rfl
  | cons e rest ih =>
    rw [List.map_cons, records, Json.fields?_ofFields]
    dsimp only
    rw [ih]
    rfl

theorem ofJson_toJson (d : Document) : ofJson d.toJson = .ok d := by
  rw [toJson]
  split
  · next hempty =>
    rw [ofJson, Json.fields?_ofFields]
    dsimp only
    rw [modulesOf, d.extra_module]
    refine congrArg Except.ok (ext ?_ (Dict.erase_of_get? d.extra_module))
    exact (Dict.isEmpty_eq_true.1 hempty).symm
  · rw [ofJson, Json.fields?_ofFields]
    dsimp only
    rw [modulesOf, Dict.get?_insert, if_pos rfl]
    dsimp only
    rw [Json.fields?_ofFields]
    dsimp only
    rw [Dict.mapValues, records_ofFields]
    refine congrArg Except.ok (ext (Dict.ofList_toList d.modules) ?_)
    exact Dict.erase_insert d.extra_module

/-! ## Writing and reading -/

/-- The bytes of a document spell its value, unless that is nested too deeply. -/
theorem parseBytes?_bytes (h : d.Sound)
    (hfloats : ∀ x, .float x ∈ d.toJson.numbers → (Json.Number.float x).ReadsBack) :
    Json.parseBytes? d.bytes =
      if d.toJson.depth ≤ Json.maxDepth then some d.toJson else none := by
  have hsound := toJson_sound h
  have hnumbers : ∀ n ∈ d.toJson.numbers, n.ReadsBack := by
    intro n hn
    cases n with
    | int i => exact Json.Number.int_readsBack (hsound.inRange _ hn)
    | float x => exact hfloats x hn
  have hindent : ∀ c ∈ ['\t'], Json.isSpace c = true := List.all_eq_true.1 (by decide)
  have hblank : ∀ c ∈ ['\n'], Json.isSpace c = true := List.all_eq_true.1 (by decide)
  have htext : d.text.toList = d.toJson.prettyChars ['\t'] 0 ++ ['\n'] := by
    rw [text, Json.canonical_of_ordered d.toJson hsound.ordered, Json.pretty, String.toList_append,
      String.toList_ofList]
    rfl
  rw [Json.parseBytes?, bytes, Text.fromUTF8?_toUTF8, Option.bind_some, htext,
    Json.parse?_pretty hindent hblank Json.maxDepth hnumbers]

/-- A document is read back from its bytes unless its value is nested too deeply. -/
theorem load_bytes (h : d.Sound)
    (hfloats : ∀ x, .float x ∈ d.toJson.numbers → (Json.Number.float x).ReadsBack) :
    load d.bytes = if d.toJson.depth ≤ Json.maxDepth then .ok d
      else .error (.document .notJson) := by
  rw [load, Json.readBytes?, parseBytes?_bytes h hfloats]
  by_cases hdepth : d.toJson.depth ≤ Json.maxDepth
  · rw [if_pos hdepth, if_pos hdepth, Option.map_some,
      Json.canonical_of_ordered d.toJson (toJson_sound h).ordered]
    dsimp only
    rw [ofJson_toJson]
    rfl
  · rw [if_neg hdepth, if_neg hdepth]
    rfl

/-! ## What is loaded -/

theorem records_all {es : List (String × Json)} {rs : List (String × Record)}
    (h : records es = .ok rs) {n : Nat} (hes : ∀ e ∈ es, e.2.Sound ∧ e.2.depth ≤ n + 1) :
    ∀ e ∈ rs, Dict.All (fun v => v.Sound ∧ v.depth ≤ n) e.2 := by
  induction es generalizing rs with
  | nil =>
    cases h
    exact nofun
  | cons e rest ih =>
    obtain ⟨hv, hrest⟩ := List.forall_mem_cons.1 hes
    rw [records] at h
    split at h
    · cases h
    · next fields hfields =>
      obtain ⟨rs', hrs, rfl⟩ := Except.map_eq_ok.1 h
      exact List.forall_mem_cons.2 ⟨Json.fields?_all hfields hv.1 hv.2, ih hrs hrest⟩

/-- A document that was loaded can be written and read again. -/
theorem sound_load {bytes : ByteArray} (h : load bytes = .ok d) : d.Sound ∧ d.Shallow := by
  rw [load] at h
  split at h
  · cases h
  next v hv =>
  obtain ⟨hsound, hdepth⟩ := Json.sound_readBytes? hv
  have h := Except.mapError_eq_ok.1 h
  rw [ofJson] at h
  split at h
  · cases h
  next fields hfields =>
  obtain ⟨modules, hmodules, rfl⟩ := Except.map_eq_ok.1 h
  have hall : fields.All fun w => w.Sound ∧ w.depth ≤ 126 := Json.fields?_all hfields hsound hdepth
  have hfieldsAre : modules.All fun r => r.All fun v => v.Sound ∧ v.depth ≤ fieldDepth := by
    rw [modulesOf] at hmodules
    split at hmodules
    · cases hmodules
      exact Dict.all_empty
    next w hw =>
    split at hmodules
    · cases hmodules
    next members hmembers =>
    obtain ⟨rs, hrs, rfl⟩ := Except.map_eq_ok.1 hmodules
    obtain ⟨hwsound, hwdepth⟩ := hall _ w hw
    have hmembersAll : members.All fun w => w.Sound ∧ w.depth ≤ 125 :=
      Json.fields?_all hmembers hwsound hwdepth
    exact Dict.all_ofList (records_all hrs (Dict.all_toList.1 hmembersAll))
  refine ⟨⟨?_, hfieldsAre.imp fun r hr => hr.imp fun v hv => hv.1⟩,
    hfieldsAre.imp fun r hr => hr.imp fun v hv => hv.2⟩
  exact (hall.imp fun v hv => ⟨hv.1, Nat.succ_le_succ hv.2⟩).erase moduleKey

end Document

end ClusterLedger
