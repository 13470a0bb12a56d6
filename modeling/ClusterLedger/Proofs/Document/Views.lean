import ClusterLedger.Proofs.Document.Basic
import Mathlib.Data.List.Forall2

/-!
# Views of records

A view splits a record into texts and settings. Nothing is lost on the way there or back, as long as
no setting has the name of a text field.
-/
namespace ClusterLedger

/-! ## Texts and settings -/

namespace Record

variable {module : String} {fields texts : List String} {settings : Settings} {r : Record}

/-- A record has texts in some of its fields. -/
def HasTexts (r : Record) (fields texts : List String) : Prop :=
  List.Forall₂ (fun field s => r.text? field = some s) fields texts

theorem text?_eq_some {field s : String} :
    r.text? field = some s ↔ r.get? field = some (.string s) := by
  rw [text?, Option.bind_eq_some_iff]
  constructor
  · rintro ⟨v, hv, hs⟩
    cases v <;> cases hs
    exact hv
  · intro h
    exact ⟨_, h, rfl⟩

theorem exists_hasTexts : (∃ texts, r.HasTexts fields texts) ↔
    ∀ field ∈ fields, ∃ s, r.get? field = some (.string s) := by
  simp only [← text?_eq_some]
  induction fields with
  | nil => simp [HasTexts]
  | cons field rest ih =>
    rw [List.forall_mem_cons, ← ih]
    constructor
    · rintro ⟨texts, h⟩
      obtain ⟨s, rest', hs, hrest, -⟩ := List.forall₂_cons_left_iff.1 h
      exact ⟨⟨s, hs⟩, rest', hrest⟩
    · rintro ⟨⟨s, hs⟩, texts, h⟩
      exact ⟨s :: texts, .cons hs h⟩

theorem texts_eq_ok : r.texts module fields = .ok texts ↔ r.HasTexts fields texts := by
  induction fields generalizing texts with
  | nil => simp [Record.texts, HasTexts, eq_comm]
  | cons field rest ih =>
    rw [Record.texts, HasTexts, List.forall₂_cons_left_iff]
    cases hs : r.text? field with
    | none => simp
    | some s =>
      simp only [Except.map_eq_ok, ih, HasTexts, Option.some.injEq]
      constructor
      · rintro ⟨rest', hrest, rfl⟩
        exact ⟨s, rest', rfl, hrest, rfl⟩
      · rintro ⟨_, rest', rfl, hrest, rfl⟩
        exact ⟨rest', hrest, rfl⟩

/-- Fields that have texts are not of another type. -/
theorem wrongField?_eq_none (h : r.HasTexts fields texts) : r.wrongField? fields = none := by
  apply List.find?_eq_none.2
  rintro ⟨field, v⟩ hmem hwrong
  obtain ⟨hfield, hnone⟩ := of_decide_eq_true hwrong
  obtain ⟨s, hs⟩ := exists_hasTexts.1 ⟨texts, h⟩ field hfield
  rw [Dict.get?_eq_some.2 hmem] at hs
  cases hs
  cases hnone

theorem readTexts_eq_ok : r.readTexts module fields = .ok texts ↔ r.HasTexts fields texts := by
  constructor
  · intro h
    rw [readTexts] at h
    split at h
    · cases h
    · exact texts_eq_ok.1 h
  · intro h
    rw [readTexts, wrongField?_eq_none h]
    exact texts_eq_ok.2 h

theorem get?_others (fields : List String) (r : Record) (k : String) :
    (r.others fields).get? k = if k ∈ fields then none else r.get? k := by
  split
  · next hk =>
    cases hv : (r.others fields).get? k with
    | none => rfl
    | some v => exact absurd hk (of_decide_eq_true (Dict.get?_filter_eq_some.1 hv).2)
  · next hk =>
    apply Option.ext
    intro v
    rw [others, Dict.get?_filter_eq_some]
    simp [hk]

/-! ## Writing and reading -/

theorem HasTexts.length_eq (h : r.HasTexts fields texts) : fields.length = texts.length :=
  List.Forall₂.length_eq h

theorem exists_mem_zip (hlength : fields.length = texts.length) {field : String} :
    field ∈ fields ↔ ∃ s, (field, s) ∈ fields.zip texts := by
  have hfields := List.map_fst_zip (Nat.le_of_eq hlength)
  constructor
  · intro hmem
    rw [← hfields] at hmem
    obtain ⟨⟨_, s⟩, hzip, rfl⟩ := List.mem_map.1 hmem
    exact ⟨s, hzip⟩
  · rintro ⟨s, hzip⟩
    exact (List.of_mem_zip hzip).1

/-- The fields that have texts, with their texts, are a part of the record. -/
theorem HasTexts.get?_zip (h : r.HasTexts fields texts) (field : String) :
    (Entries.get? field (fields.zip texts).reverse).map Json.string =
      if field ∈ fields then r.get? field else none := by
  obtain ⟨hlength, hall⟩ := List.forall₂_iff_zip.1 h
  cases hget : Entries.get? field (fields.zip texts).reverse with
  | none =>
    rw [if_neg, Option.map_none]
    intro hfield
    obtain ⟨s, hmem⟩ := (exists_mem_zip hlength).1 hfield
    exact Entries.get?_eq_none.1 hget s (List.mem_reverse.2 hmem)
  | some s =>
    have hmem := List.mem_reverse.1 (Entries.mem_of_get? hget)
    rw [if_pos ((exists_mem_zip hlength).2 ⟨s, hmem⟩), text?_eq_some.1 (hall hmem),
      Option.map_some]

/-- The texts and the other fields of a record together are the record. -/
theorem HasTexts.ofTexts_others (h : r.HasTexts fields texts) :
    ofTexts (fields.zip texts) (r.others fields) = r := by
  apply Dict.ext_get?
  intro field
  rw [get?_ofTexts, get?_others, h.get?_zip]
  split
  · rw [Option.none_or]
  · rw [Option.or_none]

theorem hasTexts_ofTexts (hdistinct : fields.Nodup) (hlength : fields.length = texts.length)
    (hfree : ∀ field ∈ fields, settings.get? field = none) :
    (ofTexts (fields.zip texts) settings).HasTexts fields texts := by
  have hentries : Entries.Distinct (fields.zip texts) := by
    rw [← List.map_fst_zip (Nat.le_of_eq hlength)] at hdistinct
    exact List.pairwise_map.1 hdistinct
  apply List.forall₂_iff_zip.2
  refine ⟨hlength, ?_⟩
  intro field s hmem
  have hfield := (exists_mem_zip hlength).2 ⟨s, hmem⟩
  apply text?_ofTexts (hfree field hfield)
  exact (hentries.perm (List.reverse_perm _).symm).get?_of_mem (List.mem_reverse.2 hmem)

theorem others_ofTexts (hlength : fields.length = texts.length)
    (hfree : ∀ field ∈ fields, settings.get? field = none) :
    (ofTexts (fields.zip texts) settings).others fields = settings := by
  apply Dict.ext_get?
  intro field
  rw [get?_others]
  split
  · next hfield => rw [hfree field hfield]
  · next hfield =>
    have hnone : Entries.get? field (fields.zip texts).reverse = none := by
      apply Entries.get?_eq_none.2
      intro s hmem
      exact hfield ((exists_mem_zip hlength).2 ⟨s, List.mem_reverse.1 hmem⟩)
    rw [get?_ofTexts, hnone, Option.map_none, Option.or_none]

end Record

/-! ## Views -/

section

variable {α : Type} {fields : List String} {texts : α → List String} {settings : α → Settings}
  {toRecord : α → Record} {ofRecord : String → Record → Except DocumentFault α}

/-- A type of views that have a text for each field, and settings. -/
structure IsView (fields : List String) (texts : α → List String) (settings : α → Settings)
    (toRecord : α → Record) (ofRecord : String → Record → Except DocumentFault α) : Prop where
  distinct : fields.Nodup
  length_eq : ∀ v, fields.length = (texts v).length
  exists_view : ∀ ss others, fields.length = ss.length → ∃ v, texts v = ss ∧ settings v = others
  toRecord_eq : ∀ v, toRecord v = .ofTexts (fields.zip (texts v)) (settings v)
  reads : ∀ module r v, r.readTexts module fields = .ok (texts v) →
    r.others fields = settings v → ofRecord module r = .ok v
  refuses : ∀ module r fault, r.readTexts module fields = .error fault →
    ofRecord module r = .error fault

/-- What can be relied on when records are read as views and views are written as records. -/
structure Lossless (fields : List String) (texts : α → List String) (settings : α → Settings)
    (toRecord : α → Record) (ofRecord : String → Record → Except DocumentFault α) : Prop where
  succeeds : ∀ (d : Document) name r, d.module? name = some r →
    ((∃ answer, d.view? ofRecord name = .ok answer) ↔
      ∀ field ∈ fields, ∃ s, r.get? field = some (.string s))
  restores : ∀ (d : Document) name r answer, d.module? name = some r →
    d.view? ofRecord name = .ok answer → ∃ v, answer = some v ∧ toRecord v = r ∧
      r.HasTexts fields (texts v) ∧
      ∀ k, (settings v).get? k = if k ∈ fields then none else r.get? k
  rereads : ∀ name v, (∀ field ∈ fields, (settings v).get? field = none) →
    ofRecord name (toRecord v) = .ok v

theorem Document.view?_eq_ok {d : Document} {name : String} {r : Record} {answer : Option α}
    (hr : d.module? name = some r) :
    d.view? ofRecord name = .ok answer ↔ ∃ v, ofRecord name r = .ok v ∧ some v = answer := by
  rw [Document.view?, hr]
  dsimp only
  rw [Except.mapError_eq_ok, Except.map_eq_ok]

namespace IsView

variable {module : String} {r : Record} {v : α}

theorem ofRecord_eq_ok (h : IsView fields texts settings toRecord ofRecord) :
    ofRecord module r = .ok v ↔ r.HasTexts fields (texts v) ∧ r.others fields = settings v := by
  constructor
  · intro hv
    cases htexts : r.readTexts module fields with
    | error fault =>
      rw [h.refuses module r fault htexts] at hv
      cases hv
    | ok ss =>
      have hss := Record.readTexts_eq_ok.1 htexts
      obtain ⟨w, rfl, hw⟩ := h.exists_view ss (r.others fields) hss.length_eq
      rw [h.reads module r w htexts hw.symm] at hv
      cases hv
      exact ⟨hss, hw.symm⟩
  · rintro ⟨htexts, hothers⟩
    exact h.reads module r v (Record.readTexts_eq_ok.2 htexts) hothers

theorem exists_ofRecord (h : IsView fields texts settings toRecord ofRecord) (module : String) :
    (∃ v, ofRecord module r = .ok v) ↔
      ∀ field ∈ fields, ∃ s, r.get? field = some (.string s) := by
  rw [← Record.exists_hasTexts]
  constructor
  · rintro ⟨v, hv⟩
    exact ⟨texts v, (h.ofRecord_eq_ok.1 hv).1⟩
  · rintro ⟨ss, hss⟩
    obtain ⟨v, rfl, hv⟩ := h.exists_view ss (r.others fields) hss.length_eq
    exact ⟨v, h.ofRecord_eq_ok.2 ⟨hss, hv.symm⟩⟩

theorem lossless (h : IsView fields texts settings toRecord ofRecord) :
    Lossless fields texts settings toRecord ofRecord where
  succeeds d name r hr := by
    rw [← h.exists_ofRecord name]
    constructor
    · rintro ⟨answer, hanswer⟩
      obtain ⟨v, hv, -⟩ := (Document.view?_eq_ok hr).1 hanswer
      exact ⟨v, hv⟩
    · rintro ⟨v, hv⟩
      exact ⟨some v, (Document.view?_eq_ok hr).2 ⟨v, hv, rfl⟩⟩
  restores d name r answer hr hanswer := by
    obtain ⟨v, hv, rfl⟩ := (Document.view?_eq_ok hr).1 hanswer
    obtain ⟨htexts, hothers⟩ := h.ofRecord_eq_ok.1 hv
    refine ⟨v, rfl, ?_, htexts, ?_⟩
    · rw [h.toRecord_eq, ← hothers]
      exact htexts.ofTexts_others
    · intro k
      rw [← hothers, Record.get?_others]
  rereads name v hfree := by
    rw [h.ofRecord_eq_ok, h.toRecord_eq]
    exact ⟨Record.hasTexts_ofTexts h.distinct (h.length_eq v) hfree,
      Record.others_ofTexts (h.length_eq v) hfree⟩

end IsView

end

theorem ManagerView.isView :
    IsView fields (fun v => [v.source, v.name]) settings toRecord ofRecord where
  distinct := by decide
  length_eq _ := rfl
  exists_view ss others hlength := by
    match ss, hlength with
    | [source, name], _ => exact ⟨⟨source, name, others⟩, rfl, rfl⟩
  toRecord_eq _ := rfl
  reads module r v htexts hothers := by rw [ofRecord, htexts, hothers]
  refuses module r fault hfault := by rw [ofRecord, hfault]

theorem ClusterView.isView :
    IsView fields (fun v => [v.source, v.name, v.apiUrl]) settings toRecord ofRecord where
  distinct := by decide
  length_eq _ := rfl
  exists_view ss others hlength := by
    match ss, hlength with
    | [source, name, apiUrl], _ => exact ⟨⟨source, name, apiUrl, others⟩, rfl, rfl⟩
  toRecord_eq _ := rfl
  reads module r v htexts hothers := by rw [ofRecord, htexts, hothers]
  refuses module r fault hfault := by rw [ofRecord, hfault]

theorem NodeView.isView :
    IsView fields (fun v => [v.source, v.hostname, v.apiUrl, v.environment]) settings toRecord
      ofRecord where
  distinct := by decide
  length_eq _ := rfl
  exists_view ss others hlength := by
    match ss, hlength with
    | [source, hostname, apiUrl, environment], _ =>
      exact ⟨⟨source, hostname, apiUrl, environment, others⟩, rfl, rfl⟩
  toRecord_eq _ := rfl
  reads module r v htexts hothers := by rw [ofRecord, htexts, hothers]
  refuses module r fault hfault := by rw [ofRecord, hfault]

/-- Views of managers, clusters and nodes have all of their records. -/
theorem views_lossless :
    Lossless ManagerView.fields (fun v => [v.source, v.name]) ManagerView.settings
      ManagerView.toRecord ManagerView.ofRecord ∧
    Lossless ClusterView.fields (fun v => [v.source, v.name, v.apiUrl]) ClusterView.settings
      ClusterView.toRecord ClusterView.ofRecord ∧
    Lossless NodeView.fields (fun v => [v.source, v.hostname, v.apiUrl, v.environment])
      NodeView.settings NodeView.toRecord NodeView.ofRecord :=
  ⟨ManagerView.isView.lossless, ClusterView.isView.lossless, NodeView.isView.lossless⟩

end ClusterLedger
