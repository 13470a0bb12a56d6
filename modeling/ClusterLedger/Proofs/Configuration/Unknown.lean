import ClusterLedger.Proofs.Configuration.Sources
import ClusterLedger.Proofs.Dict
import ClusterLedger.Proofs.Text.Utf8
import ClusterLedger.Proofs.Yaml.Blank

/-!
# Unknown fields

A configuration with an unknown field is refused. Inside of the storage an unknown field is passed over
instead, unless it cannot even be passed over: what is read is what the file would say without it. A
number in the place of a key names a field by its position.
-/
namespace ClusterLedger.Configuration

variable {names : List String} {name : String} {tag : Option String} {k v : Yaml} {e : Yaml × Yaml}
  {entries settings : List (Yaml × Yaml)}

/-- A list of steps fails if one of them fails whatever was before. -/
theorem foldlM_eq_none {α β : Type} {f : β → α → Option β} {x : α} {xs : List α} (hx : x ∈ xs)
    (h : ∀ b, f b x = none) (b : β) : xs.foldlM f b = none := by
  induction xs generalizing b with
  | nil => cases hx
  | cons y ys ih =>
    rw [List.foldlM_cons]
    rcases List.mem_cons.1 hx with rfl | hx
    · rw [h]
      rfl
    · cases f b y with
      | none => rfl
      | some c => exact ih hx c

/-! ## Nesting -/

theorem le_depthOfEntries {n : Nat} (hn : 0 < n) {es : List (Yaml × Yaml)} :
    n ≤ Yaml.depthOfEntries es ↔ ∃ e ∈ es, n ≤ e.1.depth ∨ n ≤ e.2.depth := by
  induction es with
  | nil => simp [Yaml.depthOfEntries]; omega
  | cons e rest ih =>
    obtain ⟨k, v⟩ := e
    simp [Yaml.depthOfEntries, ih, or_assoc]

theorem entriesAreTame_iff {es : List (Yaml × Yaml)} :
    entriesAreTame es = true ↔ ∀ e ∈ es, isTame e.1 = true ∧ isTame e.2 = true := by
  induction es with
  | nil => simp [entriesAreTame]
  | cons e rest ih =>
    obtain ⟨k, v⟩ := e
    simp [entriesAreTame, ih, and_assoc]

/-! ## Fields of the storage -/

/-- The kind of storage that a mapping tells. -/
def kindOf? (settings : List (Yaml × Yaml)) : Option String :=
  match settings.filter fun e => isKindKey e.1 with
  | [(_, v)] => v.text?
  | _ => none

/-- The fields of the kind of storage that a mapping tells. -/
def fieldsOf (settings : List (Yaml × Yaml)) : List String :=
  ((kindOf? settings).bind storageFields?).getD []

/-- Whether a key is the name of a field. -/
def isFieldKey (names : List String) (k : Yaml) : Bool :=
  k.text?.any (· ∈ names)

/-- Whether a key is the name of a field of a storage, or tells its kind. -/
def isStorageKey (names : List String) (k : Yaml) : Bool :=
  isKindKey k || isFieldKey names k

/-- An entry of a storage as it is documented: a position is the name of its field, and what is not
known is left out. -/
def documented? (names : List String) (e : Yaml × Yaml) : Option (Yaml × Yaml) :=
  if isStorageKey names e.1 then some e
  else match namedField? names e.1 with
    | some (some name) => some (.scalar none .quoted name, e.2)
    | _ => none

/-- Whether an entry of a storage can be passed over: its key is a text or a natural number, and its
value is one that can be read and is not nested too deeply. -/
def isPassable (names : List String) (e : Yaml × Yaml) : Bool :=
  (namedField? names e.1).isSome && isTame e.1 && isTame e.2 && e.2.depth < maxStorageDepth

theorem type_not_mem {kind : String} (h : storageFields? kind = some names) : "type" ∉ names := by
  unfold storageFields? at h
  split at h
  · cases h; decide
  · cases h; decide
  · cases h

theorem type_not_mem_fieldsOf (settings : List (Yaml × Yaml)) : "type" ∉ fieldsOf settings := by
  rw [fieldsOf]
  cases hfields : (kindOf? settings).bind storageFields? with
  | none => exact List.not_mem_nil
  | some names =>
    obtain ⟨kind, -, hkind⟩ := Option.bind_eq_some_iff.1 hfields
    exact type_not_mem hkind

theorem mem_of_namedField? (h : namedField? names k = some (some name)) : name ∈ names := by
  match k with
  | .scalar tag style s =>
    rw [namedField?] at h
    split at h
    · split at h
      · next hmem => cases h; exact hmem
      · cases h
    · exact List.mem_of_getElem? (Option.some.inj h)
    · cases h
  | .sequence _ _ => cases h
  | .mapping _ _ => cases h

theorem depth_of_namedField? (h : (namedField? names k).isSome = true) : k.depth = 0 := by
  match k with
  | .scalar _ _ _ => rfl
  | .sequence _ _ => cases h
  | .mapping _ _ => cases h

theorem namedField?_quoted (h : name ∈ names) :
    namedField? names (.scalar none .quoted name) = some (some name) := by
  simp [namedField?, Yaml.meaning?, h]

/-- The documented entries are there as they are; of the others those are left that name a field by its
position. -/
theorem documented?_cases (names : List String) (e : Yaml × Yaml) :
    (isStorageKey names e.1 = true ∧ documented? names e = some e) ∨
      (isStorageKey names e.1 = false ∧
        ((∃ name, namedField? names e.1 = some (some name) ∧
            documented? names e = some (.scalar none .quoted name, e.2)) ∨
          ((∀ name, namedField? names e.1 ≠ some (some name)) ∧ documented? names e = none))) := by
  rw [documented?]
  cases isStorageKey names e.1 with
  | true => exact .inl ⟨rfl, rfl⟩
  | false =>
    refine .inr ⟨rfl, ?_⟩
    match namedField? names e.1 with
    | some (some name) => exact .inl ⟨name, rfl, rfl⟩
    | some none => exact .inr ⟨nofun, rfl⟩
    | none => exact .inr ⟨nofun, rfl⟩

theorem filter_documented (hnames : "type" ∉ names) (settings : List (Yaml × Yaml)) :
    ((settings.filterMap (documented? names)).filter fun e => isKindKey e.1) =
        (settings.filter fun e => isKindKey e.1) ∧
      ((settings.filterMap (documented? names)).filter fun e => !isKindKey e.1) =
        (settings.filter fun e => !isKindKey e.1).filterMap (documented? names) := by
  induction settings with
  | nil => exact ⟨rfl, rfl⟩
  | cons e rest ih =>
    rcases documented?_cases names e with ⟨hkey, hdoc⟩ | ⟨hkey, ⟨name, hname, hdoc⟩ | ⟨-, hdoc⟩⟩
    · rw [List.filterMap_cons_some hdoc]
      cases hkind : isKindKey e.1 <;> simp [hkind, ih, hdoc]
    · have hkind : isKindKey e.1 = false := (Bool.or_eq_false_iff.1 hkey).1
      have hquoted : isKindKey (.scalar none .quoted name) = false := by
        refine decide_eq_false fun he => hnames ?_
        cases he
        exact mem_of_namedField? hname
      simp [hdoc, hkind, hquoted, ih]
    · have hkind : isKindKey e.1 = false := (Bool.or_eq_false_iff.1 hkey).1
      simp [hdoc, hkind, ih]

theorem kindOf?_documented (settings : List (Yaml × Yaml)) :
    kindOf? (settings.filterMap (documented? (fieldsOf settings))) = kindOf? settings := by
  rw [kindOf?, kindOf?, (filter_documented (type_not_mem_fieldsOf settings) settings).1]

/-! ## Reading the storage -/

theorem addStorageField?_quoted (hname : namedField? names e.1 = some (some name))
    (fields : Dict Yaml) : addStorageField? names fields (.scalar none .quoted name, e.2) =
      addStorageField? names fields e := by
  rw [addStorageField?, addStorageField?, namedField?_quoted (mem_of_namedField? hname), hname]

theorem addStorageField?_of_unnamed (hsome : (namedField? names e.1).isSome = true)
    (hnone : ∀ name, namedField? names e.1 ≠ some (some name)) (fields : Dict Yaml) :
    addStorageField? names fields e = some fields := by
  rw [addStorageField?]
  match hnamed : namedField? names e.1 with
  | some (some name) => exact absurd hnamed (hnone name)
  | some none => rfl
  | none =>
    rw [hnamed] at hsome
    cases hsome

theorem foldlM_documented {others : List (Yaml × Yaml)}
    (h : ∀ e ∈ others, isStorageKey names e.1 = true ∨ isPassable names e = true)
    (fields : Dict Yaml) :
    (others.filterMap (documented? names)).foldlM (addStorageField? names) fields =
      others.foldlM (addStorageField? names) fields := by
  induction others generalizing fields with
  | nil => rfl
  | cons e rest ih =>
    have ih := ih fun e he => h e (List.mem_cons_of_mem _ he)
    rcases documented?_cases names e with ⟨-, hdoc⟩ | ⟨hkey, ⟨name, hname, hdoc⟩ | ⟨hnone, hdoc⟩⟩
    · simp only [List.filterMap_cons_some hdoc, List.foldlM_cons, ih]
    · simp only [List.filterMap_cons_some hdoc, List.foldlM_cons, addStorageField?_quoted hname, ih]
    · have hpass := (h e List.mem_cons_self).resolve_left (by simp [hkey])
      simp only [isPassable, Bool.and_eq_true] at hpass
      simp only [List.filterMap_cons_none hdoc, List.foldlM_cons,
        addStorageField?_of_unnamed hpass.1.1.1 hnone, Option.bind_eq_bind, Option.bind_some, ih]

theorem entriesAreTame_documented {others : List (Yaml × Yaml)}
    (h : ∀ e ∈ others, isStorageKey names e.1 = true ∨ isPassable names e = true) :
    entriesAreTame (others.filterMap (documented? names)) = entriesAreTame others := by
  rw [Bool.eq_iff_iff, entriesAreTame_iff, entriesAreTame_iff]
  constructor
  · intro htame e he
    rcases h e he with hkey | hpass
    · exact htame e (List.mem_filterMap.2 ⟨e, he, if_pos hkey⟩)
    · simp only [isPassable, Bool.and_eq_true] at hpass
      exact ⟨hpass.1.1.2, hpass.1.2⟩
  · intro htame e' he'
    obtain ⟨e, he, hdoc⟩ := List.mem_filterMap.1 he'
    rcases documented?_cases names e with ⟨-, hdoc'⟩ | ⟨-, ⟨name, -, hdoc'⟩ | ⟨-, hdoc'⟩⟩
    · obtain rfl : e' = e := Option.some.inj (hdoc.symm.trans hdoc')
      exact htame e' he
    · cases hdoc.symm.trans hdoc'
      exact ⟨rfl, (htame e he).2⟩
    · cases hdoc.symm.trans hdoc'

/-- The storage of a mapping is the one of its kind. -/
theorem storageOfYaml?_mapping (settings : List (Yaml × Yaml)) :
    storageOfYaml? (.mapping tag settings) = if tag.any Yaml.isOwnTag then none else
      (kindOf? settings).bind fun kind => (storageFields? kind).bind fun names =>
        if entriesAreTame (settings.filter fun e => !isKindKey e.1) then
          ((settings.filter fun e => !isKindKey e.1).foldlM (addStorageField? names) {}).bind
            (storageOf? kind)
        else none := by
  rw [storageOfYaml?, kindOf?]
  simp only [decide_not, Bool.decide_eq_true]
  generalize (settings.filter fun e => isKindKey e.1) = kinds
  cases kinds with
  | nil => rfl
  | cons e rest => cases rest <;> rfl

/-- A storage whose unknown entries can be passed over is the one that is documented. -/
theorem storageOfYaml?_documented (h : ∀ e ∈ settings, isStorageKey (fieldsOf settings) e.1 = true ∨
      isPassable (fieldsOf settings) e = true) :
    storageOfYaml? (.mapping tag (settings.filterMap (documented? (fieldsOf settings)))) =
      storageOfYaml? (.mapping tag settings) := by
  obtain ⟨-, hothers⟩ := filter_documented (type_not_mem_fieldsOf settings) settings
  have hrest : ∀ e ∈ settings.filter fun e => !isKindKey e.1,
      isStorageKey (fieldsOf settings) e.1 = true ∨ isPassable (fieldsOf settings) e = true :=
    fun e he => h e (List.mem_filter.1 he).1
  rw [storageOfYaml?_mapping, storageOfYaml?_mapping, kindOf?_documented, hothers,
    entriesAreTame_documented hrest]
  refine if_congr Iff.rfl rfl ?_
  refine Option.bind_congr fun kind hsome => Option.bind_congr fun names hnames => ?_
  have hfields : fieldsOf settings = names := by rw [fieldsOf, hsome, Option.bind_some, hnames]; rfl
  rw [hfields] at hrest ⊢
  rw [foldlM_documented hrest]

theorem isPassable_eq_true : isPassable names e = true ↔ (namedField? names e.1).isSome = true ∧
    isTame e.1 = true ∧ isTame e.2 = true ∧ e.2.depth < maxStorageDepth := by
  simp [isPassable, and_assoc]

/-- In a storage that is read every unknown entry can be passed over. -/
theorem isPassable_of_storageOfYaml? {storage : Storage}
    (h : storageOfYaml? (.mapping tag settings) = some storage) (he : e ∈ settings)
    (hkey : isStorageKey (fieldsOf settings) e.1 = false) (hdepth : e.2.depth < maxStorageDepth) :
    isPassable (fieldsOf settings) e = true := by
  rw [storageOfYaml?_mapping] at h
  obtain ⟨-, h⟩ := Option.ite_none_left_eq_some.1 h
  obtain ⟨kind, hkind, h⟩ := Option.bind_eq_some_iff.1 h
  obtain ⟨names, hnames, h⟩ := Option.bind_eq_some_iff.1 h
  have hfields : fieldsOf settings = names := by rw [fieldsOf, hkind, Option.bind_some, hnames]; rfl
  have hrest : e ∈ settings.filter fun e => !isKindKey e.1 :=
    List.mem_filter.2 ⟨he, by simp [(Bool.or_eq_false_iff.1 hkey).1]⟩
  split at h
  · next htame =>
    obtain ⟨fields, hfold, -⟩ := Option.bind_eq_some_iff.1 h
    obtain ⟨hkeyTame, hvalueTame⟩ := entriesAreTame_iff.1 htame e hrest
    refine isPassable_eq_true.2 ⟨?_, hkeyTame, hvalueTame, hdepth⟩
    rw [hfields, Option.isSome_iff_ne_none]
    intro hnone
    have hfails (fields : Dict Yaml) : addStorageField? names fields e = none := by
      rw [addStorageField?, hnone]
      rfl
    cases (foldlM_eq_none hrest hfails {}).symm.trans hfold
  · cases h

/-- An entry that is not documented has no part in how deeply a storage is nested, unless it cannot be
passed over. -/
theorem depth_documented (h : ∀ e ∈ settings, isStorageKey names e.1 = true ∨
      isPassable names e = true) :
    maxStorageDepth < (Yaml.mapping tag (settings.filterMap (documented? names))).depth ↔
      maxStorageDepth < (Yaml.mapping tag settings).depth := by
  have hpositive : 0 < maxStorageDepth := by decide
  rw [Yaml.depth, Yaml.depth, Nat.lt_succ_iff, Nat.lt_succ_iff, le_depthOfEntries hpositive,
    le_depthOfEntries hpositive]
  constructor
  · rintro ⟨e', he', hdepth⟩
    obtain ⟨e, he, hdoc⟩ := List.mem_filterMap.1 he'
    rcases documented?_cases names e with ⟨-, hdoc'⟩ | ⟨-, ⟨name, -, hdoc'⟩ | ⟨-, hdoc'⟩⟩
    · obtain rfl : e' = e := Option.some.inj (hdoc.symm.trans hdoc')
      exact ⟨e', he, hdepth⟩
    · obtain rfl : e' = _ := Option.some.inj (hdoc.symm.trans hdoc')
      exact ⟨e, he, .inr (hdepth.resolve_left (by simp [Yaml.depth, maxStorageDepth]))⟩
    · cases hdoc.symm.trans hdoc'
  · rintro ⟨e, he, hdepth⟩
    rcases h e he with hkey | hpass
    · exact ⟨e, List.mem_filterMap.2 ⟨e, he, if_pos hkey⟩, hdepth⟩
    · obtain ⟨hnamed, -, -, hvalue⟩ := isPassable_eq_true.1 hpass
      have hkey := depth_of_namedField? hnamed
      omega

theorem storage?_documented (h : ∀ e ∈ settings, isStorageKey (fieldsOf settings) e.1 = true ∨
      isPassable (fieldsOf settings) e = true) :
    storage? (.mapping tag (settings.filterMap (documented? (fieldsOf settings)))) =
      storage? (.mapping tag settings) := by
  rw [storage?, storage?, storageOfYaml?_documented h]
  simp only [depth_documented h]

theorem storage?_of_not_passable (he : e ∈ settings)
    (hkey : isStorageKey (fieldsOf settings) e.1 = false)
    (hpass : isPassable (fieldsOf settings) e = false) : storage? (.mapping tag settings) = none := by
  rw [storage?]
  split
  · rfl
  · next hdepth =>
    have hentry : ¬∃ e ∈ settings, maxStorageDepth ≤ e.1.depth ∨ maxStorageDepth ≤ e.2.depth := by
      rw [← le_depthOfEntries (by decide)]
      rw [Yaml.depth] at hdepth
      omega
    cases hstorage : storageOfYaml? (.mapping tag settings) with
    | none => rfl
    | some storage =>
      have hvalue : e.2.depth < maxStorageDepth :=
        Nat.lt_of_not_le fun hle => hentry ⟨e, he, .inr hle⟩
      cases hpass.symm.trans (isPassable_of_storageOfYaml? hstorage he hkey hvalue)

/-! ## Fields of the configuration -/

/-- A storage without what is not documented. -/
def documentedStorage : Yaml → Yaml
  | .mapping tag settings => .mapping tag (settings.filterMap (documented? (fieldsOf settings)))
  | v => v

/-- The value of a field without what is not documented. -/
def documentedField (name : String) (v : Yaml) : Yaml :=
  if name = "backend" then documentedStorage v else v

/-- An entry of a configuration without what is not documented in it. -/
def documentedEntry (e : Yaml × Yaml) : Yaml × Yaml :=
  match e.1.text? with
  | some name => (e.1, documentedField name e.2)
  | none => e

/-- Some entry is no field of a configuration. -/
def HasUnknownField (entries : List (Yaml × Yaml)) : Prop :=
  ∃ e ∈ entries, isFieldKey fieldNames e.1 = false

/-- Some entry of the storage is not documented. -/
def HasUnknownSetting (entries : List (Yaml × Yaml)) : Prop :=
  ∃ e ∈ entries, e.1.text? = some "backend" ∧ ∃ tag settings, e.2 = .mapping tag settings ∧
    ∃ f ∈ settings, isStorageKey (fieldsOf settings) f.1 = false

/-- Some entry of the storage is not documented and cannot be passed over. -/
def HasHardSetting (entries : List (Yaml × Yaml)) : Prop :=
  ∃ e ∈ entries, e.1.text? = some "backend" ∧ ∃ tag settings, e.2 = .mapping tag settings ∧
    ∃ f ∈ settings, isStorageKey (fieldsOf settings) f.1 = false ∧
      isPassable (fieldsOf settings) f = false

theorem documentedEntry_of_text {name : String} (h : e.1.text? = some name) :
    documentedEntry e = (e.1, documentedField name e.2) := by
  simp only [documentedEntry, h]

theorem addField?_of_text {name : String} (h : e.1.text? = some name) (fields : Dict Yaml) :
    addField? fields e =
      if name ∈ fieldNames ∧ fields.get? name = none then some (fields.insert name e.2) else none := by
  simp only [addField?, h, Option.bind_eq_bind, Option.bind_some, Bool.not_eq_true,
    Dict.contains_eq_false]
  rfl

theorem addField?_eq_some {fields next : Dict Yaml} : addField? fields e = some next ↔
    ∃ name, e.1.text? = some name ∧ name ∈ fieldNames ∧ fields.get? name = none ∧
      fields.insert name e.2 = next := by
  cases htext : e.1.text? with
  | none => simp [addField?, htext]
  | some name => simp [addField?_of_text htext, and_assoc]

theorem addField?_documented (fields : Dict Yaml) (e : Yaml × Yaml) :
    addField? (fields.mapValues documentedField) (documentedEntry e) =
      (addField? fields e).map (Dict.mapValues documentedField) := by
  cases htext : e.1.text? with
  | none => simp [addField?, documentedEntry, htext]
  | some name =>
    have hentry : (e.1, documentedField name e.2).1.text? = some name := htext
    rw [documentedEntry_of_text htext, addField?_of_text htext]
    simp only [addField?_of_text hentry, Dict.get?_mapValues, Option.map_eq_none_iff]
    split
    · rw [Option.map_some, Dict.mapValues_insert]
    · rfl

theorem foldlM_addField?_documented (entries : List (Yaml × Yaml)) (fields : Dict Yaml) :
    (entries.map documentedEntry).foldlM addField? (fields.mapValues documentedField) =
      (entries.foldlM addField? fields).map (Dict.mapValues documentedField) := by
  induction entries generalizing fields with
  | nil => rfl
  | cons e rest ih =>
    simp only [List.map_cons, List.foldlM_cons, addField?_documented]
    cases addField? fields e with
    | none => rfl
    | some next => exact ih next

theorem fields?_documented (entries : List (Yaml × Yaml)) :
    fields? (entries.map documentedEntry) =
      (fields? entries).map (Dict.mapValues documentedField) :=
  foldlM_addField?_documented entries {}

theorem fields?_of_unknown (h : HasUnknownField entries) : fields? entries = none := by
  obtain ⟨e, he, hkey⟩ := h
  refine foldlM_eq_none he (fun fields => ?_) _
  rw [Option.eq_none_iff_forall_ne_some]
  intro next hnext
  obtain ⟨name, htext, hname, -⟩ := addField?_eq_some.1 hnext
  simp [isFieldKey, htext, hname] at hkey

/-- What a field is: the value that was there, or the one of its entry. -/
theorem get?_of_foldlM_addField? {start fields : Dict Yaml}
    (h : entries.foldlM addField? start = some fields) :
    fields.get? name = some v ↔
      start.get? name = some v ∨ ∃ e ∈ entries, e.1.text? = some name ∧ e.2 = v := by
  induction entries generalizing start with
  | nil =>
    cases h
    simp
  | cons e rest ih =>
    rw [List.foldlM_cons] at h
    obtain ⟨next, hnext, hrest⟩ := Option.bind_eq_some_iff.1 h
    obtain ⟨given, htext, -, hnone, rfl⟩ := addField?_eq_some.1 hnext
    rw [ih hrest, Dict.get?_insert]
    by_cases hgiven : given = name
    · subst hgiven
      simp [hnone, htext]
    · simp [hgiven, htext]

theorem get?_of_fields? {fields : Dict Yaml} (h : fields? entries = some fields) :
    fields.get? name = some v ↔ ∃ e ∈ entries, e.1.text? = some name ∧ e.2 = v := by
  rw [get?_of_foldlM_addField? h]
  exact or_iff_right nofun

/-! ## The configuration -/

theorem documentedField_of_ne (h : name ≠ "backend") (v : Yaml) : documentedField name v = v :=
  if_neg h

theorem get?_documentedField (fields : Dict Yaml) (h : name ≠ "backend") :
    (fields.mapValues documentedField).get? name = fields.get? name := by
  rw [Dict.get?_mapValues]
  exact (Option.map_congr fun v _ => documentedField_of_ne h v).trans Option.map_id'

/-- The storage of the field for it, or the default one. -/
def storageField? (default : Storage) : Option Yaml → Option Storage
  | some v => storage? v
  | none => some default

theorem ofEntries?_eq (default : Storage) (entries : List (Yaml × Yaml)) :
    ofEntries? default entries = (fields? entries).bind fun fields =>
      (optional? Yaml.text? (fields.get? "terraform_binary")).bind fun terraformBinary =>
      (optional? Yaml.text? (fields.get? "source_url")).bind fun sourceUrl =>
      (storageField? default (fields.get? "backend")).bind fun storage =>
      (optional? number? (fields.get? "lock_stale_after_secs")).bind fun lockStaleAfter =>
      (environment? (fields.get? "terraform_env")).bind fun terraformVariables =>
        some { terraformBinary, sourceUrl, storage, lockStaleAfter, terraformVariables } := by
  simp only [ofEntries?, Option.bind_eq_bind]
  refine Option.bind_congr fun fields _ => Option.bind_congr fun _ _ => Option.bind_congr fun _ _ => ?_
  cases fields.get? "backend" <;> rfl

theorem storageField?_documented (default : Storage) {value : Option Yaml}
    (h : ∀ tag settings, value = some (.mapping tag settings) → ∀ e ∈ settings,
      isStorageKey (fieldsOf settings) e.1 = true ∨ isPassable (fieldsOf settings) e = true) :
    storageField? default (value.map (documentedField "backend")) = storageField? default value := by
  match value with
  | none => rfl
  | some (.scalar _ _ _) => rfl
  | some (.sequence _ _) => rfl
  | some (.mapping tag settings) => exact storage?_documented (h tag settings rfl)

/-- What is not documented does not count, as long as it can be passed over. -/
theorem ofEntries?_documented (h : ¬HasHardSetting entries) (default : Storage) :
    ofEntries? default (entries.map documentedEntry) = ofEntries? default entries := by
  rw [ofEntries?_eq, ofEntries?_eq, fields?_documented]
  cases hfields : fields? entries with
  | none => rfl
  | some fields =>
    have hstorage : storageField? default ((fields.get? "backend").map (documentedField "backend")) =
        storageField? default (fields.get? "backend") := by
      refine storageField?_documented default fun tag settings hbackend f hf => ?_
      obtain ⟨e, he, htext, hsettings⟩ := (get?_of_fields? hfields).1 hbackend
      by_contra hnot
      rw [not_or, Bool.not_eq_true, Bool.not_eq_true] at hnot
      exact h ⟨e, he, htext, tag, settings, hsettings, f, hf, hnot⟩
    simp only [Option.map_some, Option.bind_some,
      Dict.get?_mapValues documentedField fields "backend", hstorage,
      get?_documentedField fields (show "terraform_binary" ≠ "backend" by decide),
      get?_documentedField fields (show "source_url" ≠ "backend" by decide),
      get?_documentedField fields (show "lock_stale_after_secs" ≠ "backend" by decide),
      get?_documentedField fields (show "terraform_env" ≠ "backend" by decide)]

theorem ofEntries?_of_unknown (h : HasUnknownField entries) (default : Storage) :
    ofEntries? default entries = none := by
  rw [ofEntries?_eq, fields?_of_unknown h, Option.bind_none]

theorem ofEntries?_of_hard (h : HasHardSetting entries) (default : Storage) :
    ofEntries? default entries = none := by
  obtain ⟨e, he, htext, tag, settings, hsettings, f, hf, hkey, hpass⟩ := h
  rw [ofEntries?_eq, Option.bind_eq_none_iff]
  intro fields hfields
  have hget : fields.get? "backend" = some (.mapping tag settings) :=
    (get?_of_fields? hfields).2 ⟨e, he, htext, hsettings⟩
  have hstorage : storageField? default (fields.get? "backend") = none := by
    rw [hget]
    exact storage?_of_not_passable hf hkey hpass
  simp [hstorage]

namespace Surroundings

variable {yaml : Yaml.Reader} {s : Surroundings} {named : Option String} {path text : String}
  {bytes : ByteArray}

/-- A file with a mapping in it is read as that mapping. -/
theorem readFile_of_mapping (hblanks : yaml.PassesBlanks) (hread : s.read path = .ok bytes)
    (htext : Text.utf8? bytes = some text) (hyaml : yaml text = some (.mapping tag entries)) :
    s.readFile yaml path = match ofEntries? s.storage entries with
      | some c => .ok c
      | none => .error (.invalid path) := by
  have hblank : Text.blank text = false := by
    rw [← Bool.not_eq_true]
    exact fun hblank => hblanks text hblank tag entries hyaml
  have hconfiguration : Configuration.read? yaml s.storage text = ofEntries? s.storage entries := by
    simp [Configuration.read?, hblank, hyaml, ofYaml?]
  simp only [readFile, hread, htext, hconfiguration]
  cases ofEntries? s.storage entries <;> rfl

theorem load_of_mapping (hblanks : yaml.PassesBlanks) (hsource : s.Chooses named (.file path))
    (hread : s.read path = .ok bytes) (htext : Text.utf8? bytes = some text)
    (hyaml : yaml text = some (.mapping tag entries)) :
    s.load yaml named = match ofEntries? s.storage entries with
      | some c => .ok (s.override c)
      | none => .error (.invalid path) := by
  rw [load_of_chooses hsource, settings, readFile_of_mapping hblanks hread htext hyaml]
  cases ofEntries? s.storage entries <;> rfl

/-- A file with an unknown field is refused. One with an unknown setting of the storage is refused if
that setting cannot be passed over, or if the file would be refused without it; otherwise it is read
as if the setting were not there. -/
theorem rejects_unknown_iff (hblanks : yaml.PassesBlanks) (hsource : s.Chooses named (.file path))
    (hread : s.read path = .ok bytes) (htext : Text.utf8? bytes = some text)
    (hyaml : yaml text = some (.mapping tag entries)) :
    (HasUnknownField entries → s.load yaml named = .error (.invalid path)) ∧
      (s.load yaml named = .error (.invalid path) ↔
        HasUnknownField entries ∨ HasHardSetting entries ∨
          ofEntries? s.storage (entries.map documentedEntry) = none) ∧
      (∀ c', s.load yaml named = .ok c' ↔ ¬HasUnknownField entries ∧ ¬HasHardSetting entries ∧
        ∃ c, ofEntries? s.storage (entries.map documentedEntry) = some c ∧ s.Overridden c c') := by
  have hload := load_of_mapping hblanks hsource hread htext hyaml
  by_cases hunknown : HasUnknownField entries
  · have hnone := ofEntries?_of_unknown hunknown s.storage
    simp [hload, hnone, hunknown]
  · by_cases hhard : HasHardSetting entries
    · have hnone := ofEntries?_of_hard hhard s.storage
      simp [hload, hnone, hunknown, hhard]
    · rw [hload, ofEntries?_documented hhard]
      cases ofEntries? s.storage entries with
      | none => simp [hunknown, hhard]
      | some c => simp [hunknown, hhard, overridden_iff, eq_comm]

/-! ### Misspelt fields -/

/-- A folder with nothing but a configuration in it, for one who has no home. -/
def withFile (text : String) : Surroundings where
  environment := {}
  accountHome := none
  folder := "/work"
  read path :=
    if path = Path.join "/work" "clusterform.yaml" then .ok text.toUTF8 else .error .missing

theorem chooses_withFile (text : String) :
    (withFile text).Chooses none (.file (Path.join "/work" "clusterform.yaml")) :=
  .plain rfl (by simp [holds, withFile])

theorem read_withFile (text : String) :
    (withFile text).read (Path.join "/work" "clusterform.yaml") = .ok text.toUTF8 := by
  simp [withFile]

/-- A misspelt field is refused. -/
theorem rejects_misspelt_field :
    Yaml.read? "url: x\n" =
        some (.mapping none [(.scalar none .plain "url", .scalar none .plain "x")]) ∧
      (withFile "url: x\n").load Yaml.read? none =
        .error (.invalid (Path.join "/work" "clusterform.yaml")) := by
  have htokens : (Yaml.input? "url: x\n").bind Yaml.tokens? =
      some [.blockMapping, .key, .scalar .plain "url", .value, .scalar .plain "x", .blockEnd] := by
    decide +kernel
  have hyaml : Yaml.read? "url: x\n" =
      some (.mapping none [(.scalar none .plain "url", .scalar none .plain "x")]) := by
    rw [Yaml.read?, htokens]
    rfl
  refine ⟨hyaml, (rejects_unknown_iff Yaml.passesBlanks_read? (chooses_withFile _)
    (read_withFile _) (Text.fromUTF8?_toUTF8 _) hyaml).1 ?_⟩
  exact ⟨_, List.mem_cons_self, by decide⟩

/-- A configuration of a remote storage with a misspelt prefix. -/
def misspelt : String :=
  "backend:\n  type: remote\n  url: https://objects.example.com\n  prefx: team\n"

/-- The entries of that configuration. -/
def misspeltEntries : List (Yaml × Yaml) :=
  let word := Yaml.scalar none .plain
  [(word "backend", .mapping none [(word "type", word "remote"),
    (word "url", word "https://objects.example.com"), (word "prefx", word "team")])]

theorem read?_misspelt : Yaml.read? misspelt = some (.mapping none misspeltEntries) := by
  have htokens : (Yaml.input? misspelt).bind Yaml.tokens? = some
      [.blockMapping, .key, .scalar .plain "backend", .value, .blockMapping,
        .key, .scalar .plain "type", .value, .scalar .plain "remote",
        .key, .scalar .plain "url", .value, .scalar .plain "https://objects.example.com",
        .key, .scalar .plain "prefx", .value, .scalar .plain "team", .blockEnd, .blockEnd] := by
    decide +kernel
  rw [Yaml.read?, htokens]
  rfl

/-- A misspelt prefix is passed over, and states are kept where there is no prefix. -/
theorem misspelt_prefix_passed_over :
    Yaml.read? misspelt = some (.mapping none misspeltEntries) ∧
      HasUnknownSetting misspeltEntries ∧
      (withFile misspelt).load Yaml.read? none =
        .ok { storage := .remote "https://objects.example.com" "" none } := by
  have hunknown : HasUnknownSetting misspeltEntries :=
    ⟨_, List.mem_cons_self, rfl, none, _, rfl,
      (.scalar none .plain "prefx", .scalar none .plain "team"), by simp, by decide⟩
  have hentries : ofEntries? (withFile misspelt).storage misspeltEntries =
      some { storage := .remote "https://objects.example.com" "" none } := by
    rfl
  refine ⟨read?_misspelt, hunknown, ?_⟩
  rw [load_of_mapping Yaml.passesBlanks_read? (chooses_withFile _) (read_withFile _)
    (Text.fromUTF8?_toUTF8 _) read?_misspelt, hentries]
  rfl

end Surroundings

end ClusterLedger.Configuration
