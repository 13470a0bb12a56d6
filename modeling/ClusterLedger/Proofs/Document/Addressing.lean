import ClusterLedger.Proofs.Document.Canonical

/-!
# Addressing modules

Whoever adds a module has its name checked, and a module with such a name can be read, taken out and
replaced by it. The names in stored bytes are not checked, so some modules of a loaded document may
be out of reach.
-/
namespace ClusterLedger

/-! ## Edits -/

/-- A change of one module. -/
inductive Edit where
  | add (name : String) (record : Json)
  | addCluster (provider : Provider) (view : ClusterView)
  | addNode (provider : Provider) (owner : String) (view : NodeView)
  | setManager (record : Json)
  | remove (name : String)

namespace Edit

/-- The document after an edit, or why the edit failed. -/
def attempt : Edit → Document → Result Document
  | add name record, d => d.add name record
  | addCluster provider view, d => (d.addCluster provider view).map (·.2)
  | addNode provider owner view, d => (d.addNode provider owner view).map (·.2)
  | setManager record, d => d.setManager record
  | remove name, d => .ok (d.remove name)

/-- An edit that fails leaves the document as it was. -/
def apply (e : Edit) (d : Document) : Document :=
  match e.attempt d with
  | .ok d' => d'
  | .error _ => d

end Edit

namespace Document

open ModuleName (IsPlain)

variable {d d' : Document} {name : String} {record : Json} {e : Edit}

/-- The document after several edits. -/
def edited (d : Document) (edits : List Edit) : Document :=
  edits.foldl (fun d e => e.apply d) d

theorem put_of_addRecord (h : d.addRecord name record = .ok d') :
    ∃ name r, IsPlain name ∧ d' = d.put name r := by
  obtain ⟨hname, r, -, rfl⟩ := addRecord_eq_ok.1 h
  exact ⟨_, r, hname, rfl⟩

/-- An edit puts a module under a plain name or takes one out. -/
theorem cases_of_attempt (h : e.attempt d = .ok d') :
    (∃ name r, IsPlain name ∧ d' = d.put name r) ∨ ∃ name, d' = d.remove name := by
  cases e with
  | add name record =>
    obtain ⟨hname, r, -, rfl⟩ := add_eq_ok.1 h
    exact .inl ⟨_, r, hname, rfl⟩
  | addCluster provider view =>
    obtain ⟨⟨module, e⟩, hadd, rfl⟩ := Except.map_eq_ok.1 h
    rw [addCluster] at hadd
    split at hadd
    · cases hadd
    · obtain ⟨e, hrecord, hpair⟩ := Except.map_eq_ok.1 hadd
      cases hpair
      exact .inl (put_of_addRecord hrecord)
  | addNode provider owner view =>
    obtain ⟨⟨module, e⟩, hadd, rfl⟩ := Except.map_eq_ok.1 h
    obtain ⟨e, hrecord, hpair⟩ := Except.map_eq_ok.1 hadd
    cases hpair
    exact .inl (put_of_addRecord hrecord)
  | setManager record => exact .inl (put_of_addRecord h)
  | remove name =>
    cases h
    exact .inr ⟨name, rfl⟩

theorem plain_or_mem_of_apply (h : name ∈ (e.apply d).moduleNames) :
    IsPlain name ∨ name ∈ d.moduleNames := by
  rw [Edit.apply] at h
  split at h
  · next d' hattempt =>
    obtain ⟨r, hr⟩ := mem_moduleNames.1 h
    rcases cases_of_attempt hattempt with ⟨other, s, hplain, rfl⟩ | ⟨other, rfl⟩
    · rw [module?_put] at hr
      split at hr
      · next hname => exact .inl (hname ▸ hplain)
      · exact .inr (mem_moduleNames.2 ⟨r, hr⟩)
    · rw [module?_remove] at hr
      split at hr
      · cases hr
      · exact .inr (mem_moduleNames.2 ⟨r, hr⟩)
  · exact .inr h

/-- A name that is not plain was there before all edits. -/
theorem plain_or_mem_of_edited {edits : List Edit} (h : name ∈ (d.edited edits).moduleNames) :
    IsPlain name ∨ name ∈ d.moduleNames := by
  induction edits generalizing d with
  | nil => exact .inr h
  | cons e rest ih =>
    rcases ih h with hplain | hmem
    · exact .inl hplain
    · exact plain_or_mem_of_apply hmem

/-! ## Modules within reach -/

/-- A module can be read by its path, taken out by its name or path and replaced by its name, and
no other module is touched. -/
structure Addresses (d : Document) (name : String) : Prop where
  reads : d.get? ("module." ++ name) = (d.module? name).map Json.ofFields
  removes : ∀ given, given = name ∨ given = "module." ++ name →
    (∀ k, (d.remove given).module? k = if k = name then none else d.module? k) ∧
      (d.remove given).extra = d.extra
  replaces : ∀ members, ∃ d', d.add name (.object members) = .ok d' ∧
    (∀ k, d'.module? k = if k = name then some (Dict.ofList members) else d.module? k) ∧
      d'.extra = d.extra

theorem addresses_of_plain (h : IsPlain name) : d.Addresses name := by
  have hself := ModuleName.ofPath_of_dotless h.2
  constructor
  case reads => exact get?_module h.2
  case removes =>
    intro given hgiven
    have hname : ModuleName.ofPath given = name := by
      rcases hgiven with rfl | rfl
      · exact hself
      · exact ModuleName.ofPath_path name
    refine ⟨?_, rfl⟩
    intro k
    rw [module?_remove, hname]
    simp only [eq_comm]
  case replaces =>
    intro members
    refine ⟨d.put name (Dict.ofList members), ?_, ?_, rfl⟩
    · rw [add_eq_ok, hself]
      exact ⟨h, _, rfl, rfl⟩
    · intro k
      rw [module?_put]
      simp only [eq_comm]

/-- What can be replaced and taken out has the name that was given. -/
theorem Addresses.plain (h : d.Addresses name) (hmem : name ∈ d.moduleNames) : IsPlain name := by
  obtain ⟨r, hr⟩ := mem_moduleNames.1 hmem
  obtain ⟨d', hadd, -, -⟩ := h.replaces []
  have hplain := (add_eq_ok.1 hadd).1
  have hgone := (h.removes name (.inl rfl)).1 name
  rw [module?_remove, if_pos rfl] at hgone
  split at hgone
  · next hself => rwa [hself] at hplain
  · rw [hr] at hgone
    cases hgone

/-- However a document was edited, the modules within reach are those with plain names, and every
other name was there before. -/
theorem addresses_iff (d : Document) (edits : List Edit) :
    ((∀ name ∈ (d.edited edits).moduleNames, (d.edited edits).Addresses name) ↔
      ∀ name ∈ (d.edited edits).moduleNames, name ∈ d.moduleNames → IsPlain name) ∧
    ∀ name ∈ (d.edited edits).moduleNames, (d.edited edits).Addresses name ↔ IsPlain name := by
  have hreach : ∀ name ∈ (d.edited edits).moduleNames,
      (d.edited edits).Addresses name ↔ IsPlain name := by
    intro name hmem
    exact ⟨fun h => h.plain hmem, addresses_of_plain⟩
  refine ⟨?_, hreach⟩
  constructor
  · intro h name hmem _
    exact (hreach name hmem).1 (h name hmem)
  · intro h name hmem
    rcases plain_or_mem_of_edited hmem with hplain | hold
    · exact addresses_of_plain hplain
    · exact addresses_of_plain (h name hmem hold)

/-- Modules with an empty name, with a dot in the name and with a path for a name. -/
def hidden : Document :=
  ((Document.empty.put "" Dict.empty).put "a.b" (.ofList [("x", .string "y")])).put "module.c"
    Dict.empty

def hiddenText : String :=
  "\x7b\"module\":\x7b\"\":\x7b\x7d,\"a.b\":\x7b\"x\":\"y\"\x7d,\"module.c\":\x7b\x7d\x7d\x7d"

/-- They are loaded and listed, but one cannot be read, one not taken out, and two not replaced. -/
theorem hidden_not_addressed : load hiddenText.toUTF8 = .ok hidden ∧
    hidden.moduleNames = ["", "a.b", "module.c"] ∧
    hidden.get? "module.a.b" = none ∧
    hidden.remove "module.c" = hidden ∧
    hidden.add "" (.object []) = .error (.invalidInput (.moduleName "")) ∧
    hidden.add "a.b" (.object []) = .error (.invalidInput (.moduleName "a.b")) ∧
    ∀ name ∈ hidden.moduleNames, ¬hidden.Addresses name := by
  have hspells : Json.Spells (Json.object [("module", .object [("", .object []),
      ("a.b", .object [("x", .string "y")]), ("module.c", .object [])])]).tokens
      hiddenText.toList :=
    (Json.tokens?_eq_some (by decide)).1 (by decide +kernel)
  have hload : load hiddenText.toUTF8 = .ok hidden := by
    rw [load, Json.readBytes?, Json.parseBytes?_toUTF8, Json.parse?_of_spells hspells,
      if_pos (by decide)]
    rfl
  have hnames : hidden.moduleNames = ["", "a.b", "module.c"] := by decide +kernel
  have hnone : ∀ name ∈ ["", "a.b", "module.c"], ¬IsPlain name := by decide
  refine ⟨hload, hnames, by decide +kernel, by decide +kernel, rfl, by decide +kernel, ?_⟩
  intro name hmem h
  exact hnone name (hnames ▸ hmem) (h.plain hmem)

end Document

end ClusterLedger
