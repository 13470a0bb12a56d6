import ClusterLedger.Cli.SetArgument
import ClusterLedger.Proofs.Document.Codec
import ClusterLedger.Proofs.Document.Request

/-!
# Opening a document again

What a request puts into a document are texts, its settings and what stands in the document already.
So whether the document can be read again is a question of how deeply the settings are nested, and
an argument may be nested more deeply than a field.
-/
namespace ClusterLedger

/-! ## Properties of values -/

/-- A property that texts have, and that goes over to the parts of a value. -/
structure Json.Closed (P : Json → Prop) : Prop where
  string : ∀ s, P (.string s)
  step : ∀ {segment v w}, P v → v.step? segment = some w → P w

namespace Json

theorem step?_of_part {segment : String} {v w : Json} (h : v.step? segment = some w) :
    (∃ members k, v = object members ∧ (k, w) ∈ members) ∨ ∃ items, v = array items ∧ w ∈ items := by
  cases v with
  | object members => exact .inl ⟨members, segment, rfl, Entries.mem_of_get? h⟩
  | array items =>
    obtain ⟨i, -, hw⟩ := Option.bind_eq_some_iff.1 h
    exact .inr ⟨items, rfl, List.mem_of_getElem? hw⟩
  | _ => cases h

theorem closed_numbers (Q : Number → Prop) : Closed fun v => ∀ n ∈ v.numbers, Q n where
  string s := nofun
  step {segment v w} hv h := by
    rcases step?_of_part h with ⟨members, k, rfl, hw⟩ | ⟨items, rfl, hw⟩
    · exact fun n hn => hv n (mem_numbersMembers.2 ⟨(k, w), hw, hn⟩)
    · exact fun n hn => hv n (mem_numbersItems.2 ⟨w, hw, hn⟩)

theorem closed_sound : Closed Sound where
  string s := ⟨trivial, nofun⟩
  step {segment v w} hv h := by
    refine ⟨?_, (closed_numbers Number.InRange).step hv.inRange h⟩
    rcases step?_of_part h with ⟨members, k, rfl, hw⟩ | ⟨items, rfl, hw⟩
    · exact orderedMembers_iff.1 hv.ordered.2 (k, w) hw
    · exact orderedItems_iff.1 hv.ordered w hw

theorem closed_depth (n : Nat) : Closed fun v => v.depth ≤ n where
  string s := Nat.zero_le n
  step {segment v w} hv h := by
    rcases step?_of_part h with ⟨members, k, rfl, hw⟩ | ⟨items, rfl, hw⟩
    · have := depthMembers_le.1 (Nat.le_refl _) (k, w) hw
      rw [depth] at hv
      dsimp only at this
      omega
    · have := depthItems_le.1 (Nat.le_refl _) w hw
      rw [depth] at hv
      omega

variable {P : Json → Prop}

theorem Closed.navigate (hP : Closed P) {path : List String} {v w : Json} (hv : P v)
    (h : v.navigate path = some w) : P w := by
  induction path generalizing v with
  | nil => cases h; exact hv
  | cons segment rest ih =>
    obtain ⟨u, hu, h⟩ := Option.bind_eq_some_iff.1 h
    exact ih (hP.step hv hu) h

end Json

/-! ## Settings -/

theorem SetArgument.sound_value (text : String) : (value text).Sound := by
  rw [value]
  cases h : Json.read? text with
  | none => exact Json.closed_sound.string text
  | some v => exact (Json.sound_read? h).1

/-- Settings from the command line are read as JSON or are texts. -/
theorem SetArgument.sound_settings {arguments : List String} {s : Settings}
    (h : settings arguments = .ok s) : s.All Json.Sound := by
  obtain ⟨entries, hentries, rfl⟩ := Except.map_eq_ok.1 h
  refine Dict.all_ofList fun e he => ?_
  obtain ⟨argument, -, hparse⟩ := Except.exists_of_mem_mapM hentries he
  rw [parse] at hparse
  split at hparse
  · cases hparse
  split at hparse
  · cases hparse
  · cases hparse
    exact sound_value _

theorem SetArgument.settings_single (key text : String) (hmark : '=' ∉ key.toList)
    (htrim : Text.trim key = key) (hne : key ≠ "") :
    settings [key ++ "=" ++ text] = .ok (Dict.empty.insert key (value text)) := by
  have hchars : Text.cutChars? '=' (key ++ "=" ++ text).toList = some (key.toList, text.toList) := by
    refine Text.cutChars?_eq_some.2 ⟨?_, hmark⟩
    simp [String.toList_append]
  have hparse : parse (key ++ "=" ++ text) = .ok (key, value text) := by
    rw [parse, Text.cut?, hchars, Option.map_some]
    simp only [String.ofList_toList]
    rw [htrim, if_neg hne]
  rw [settings, List.mapM_cons, hparse]
  rfl

namespace Step

/-- The settings of a step, if it is a request, have a property. -/
def SettingsAre (P : Json → Prop) : Step → Prop
  | request r _ => r.settings.All P
  | destroy _ _ => True

/-- The settings of a step, if it is a request, are given as arguments. -/
def FromArguments : Step → Prop
  | request r _ => ∃ arguments, SetArgument.settings arguments = .ok r.settings
  | destroy _ _ => True

theorem settingsAre_sound (s : Step) (h : s.FromArguments) : s.SettingsAre Json.Sound := by
  cases s with
  | request r sources =>
    obtain ⟨arguments, harguments⟩ := h
    exact SetArgument.sound_settings harguments
  | destroy target names => trivial

end Step

namespace Document

variable {P : Json → Prop} {d d' : Document}

/-! ## Fields -/

theorem segments_field (module field : String) :
    Text.segments '.' ("module." ++ module ++ "." ++ field) =
      moduleKey :: (Text.segments '.' module ++ Text.segments '.' field) := by
  rw [Text.segments_append_dot, segments_module, List.cons_append]

/-- A field of a module is found among the fields, or inside one of them. -/
theorem FieldsAre.get? (hP : Json.Closed P) (h : d.FieldsAre P) {module field : String} {v : Json}
    (hv : d.get? ("module." ++ module ++ "." ++ field) = some v) : P v := by
  rw [Document.get?, segments_field] at hv
  have hne (s : String) : Text.segments '.' s ≠ [] :=
    mt List.map_eq_nil_iff.1 (List.splitOn_ne_nil '.' s.toList)
  obtain ⟨name, front, hfront⟩ := List.exists_cons_of_ne_nil (hne module)
  obtain ⟨last, back, hback⟩ := List.exists_cons_of_ne_nil (hne field)
  rw [hfront, hback, List.cons_append, find?, if_pos rfl] at hv
  obtain ⟨r, hr, hv⟩ := Option.bind_eq_some_iff.1 hv
  obtain ⟨segment, rest, hpath⟩ := List.exists_cons_of_ne_nil
    (List.append_ne_nil_of_right_ne_nil front (List.cons_ne_nil last back))
  rw [hpath] at hv
  obtain ⟨w, hw, hv⟩ := Option.bind_eq_some_iff.1 hv
  exact hP.navigate (h name r hr segment w hw) hv

theorem FieldsAre.put (h : d.FieldsAre P) {name : String} {r : Record} (hr : r.All P) :
    (d.put name r).FieldsAre P :=
  Dict.All.insert h hr

theorem FieldsAre.removeAll (h : d.FieldsAre P) (names : List String) :
    (d.removeAll names).FieldsAre P := by
  intro k r hr
  rw [← module?, module?_removeAll] at hr
  split at hr
  · cases hr
  · exact h k r hr

theorem removeAll_extra (d : Document) (names : List String) :
    (d.removeAll names).extra = d.extra := by
  induction names generalizing d with
  | nil => rfl
  | cons name rest ih => exact ih (d.remove name)

theorem all_ofTexts (hP : Json.Closed P) {fields : List (String × String)} {settings : Settings}
    (h : settings.All P) : (Record.ofTexts fields settings).All P := by
  refine Dict.All.insertAll (Dict.all_ofList fun e he => ?_) (Dict.all_toList.1 h)
  obtain ⟨f, -, rfl⟩ := List.mem_map.1 he
  exact hP.string f.2

/-! ## Steps -/

theorem FieldsAre.inherit (hP : Json.Closed P) (h : d.FieldsAre P) {settings : Settings}
    (hs : settings.All P) (module : String) (provider : Provider) :
    (NodeRequest.inherit settings d module provider).All P := by
  rw [NodeRequest.inherit]
  induction provider.credentialFields generalizing settings with
  | nil => exact hs
  | cons field rest ih =>
    rw [List.foldl_cons]
    split
    · next v hv => exact ih (hs.insert (h.get? hP hv))
    · exact ih hs

/-- A request keeps what all fields and its settings have in common. -/
theorem FieldsAre.request (hP : Json.Closed P) (h : d.FieldsAre P) {r : Request} {sources : Sources}
    (hs : r.settings.All P) (hr : r.attempt sources d = .ok d') :
    d'.FieldsAre P ∧ d'.extra = d.extra := by
  cases r with
  | manager request =>
    obtain ⟨m, hm⟩ := Change.attempt_ofResult hr
    rw [ManagerRequest.run_eq_ok hm]
    exact ⟨h.put (all_ofTexts hP hs), rfl⟩
  | cluster request =>
    obtain ⟨m, hm⟩ := Change.attempt_ofResult hr
    obtain ⟨-, -, -, rfl⟩ := ClusterRequest.run_eq_ok hm
    exact ⟨h.put (all_ofTexts hP hs), rfl⟩
  | nodes request =>
    obtain ⟨hosts, -, rfl⟩ := Except.map_eq_ok.1 hr
    refine NodeRequest.change_keeps (P := fun e => e.FieldsAre P ∧ e.extra = d.extra) ?_ ⟨h, rfl⟩
    intro p hp e host hm ⟨he, hextra⟩
    have hall : p.settings.All P :=
      (NodeRequest.plan_eq_ok hp).settings ▸ h.inherit hP hs p.module p.provider
    exact ⟨he.put (all_ofTexts hP hall), hextra⟩

theorem FieldsAre.step (hP : Json.Closed P) (h : d.FieldsAre P) {s : Step} (hs : s.SettingsAre P)
    (hr : s.attempt d = .ok d') : d'.FieldsAre P ∧ d'.extra = d.extra := by
  cases s with
  | request r sources => exact h.request hP hs hr
  | destroy target names =>
    obtain ⟨selected, -, rfl⟩ := Except.map_eq_ok.1 hr
    exact ⟨h.removeAll selected, removeAll_extra d selected⟩

theorem FieldsAre.steps (hP : Json.Closed P) (h : d.FieldsAre P) {steps : List Step}
    (hs : ∀ s ∈ steps, s.SettingsAre P)
    (hr : steps.foldlM (fun d s => s.attempt d) d = .ok d') :
    d'.FieldsAre P ∧ d'.extra = d.extra := by
  refine Except.foldlM_keeps (P := fun e => e.FieldsAre P ∧ e.extra = d.extra) ?_ ⟨h, rfl⟩ hr
  intro e s hm e' ⟨he, hextra⟩ hattempt
  obtain ⟨he', hextra'⟩ := he.step hP (hs s hm) hattempt
  exact ⟨he', hextra'.trans hextra⟩

/-! ## Reading what was written -/

theorem sound_empty : empty.Sound :=
  ⟨Dict.all_empty, Dict.all_empty⟩

theorem shallow_empty : empty.Shallow :=
  Dict.all_empty

/-- A document that begins empty or loaded and changes by successful steps, with settings from the
command line, is read back exactly when no field is nested too deeply; then and only then can it be
read at all. It suffices that the settings are not. -/
theorem reopens_iff {d₀ d : Document} {steps : List Step}
    (hstart : d₀ = empty ∨ ∃ bytes, load bytes = .ok d₀)
    (hsettings : ∀ s ∈ steps, s.FromArguments)
    (hsteps : steps.foldlM (fun d s => s.attempt d) d₀ = .ok d)
    (hfloats : ∀ x, .float x ∈ d.toJson.numbers → (Json.Number.float x).ReadsBack) :
    (load d.bytes = .ok d ↔ d.Shallow) ∧
      (¬d.Shallow → load d.bytes = .error (.document .notJson)) ∧
      ((∀ s ∈ steps, s.SettingsAre fun v => v.depth ≤ fieldDepth) → load d.bytes = .ok d) := by
  have hsound₀ : d₀.Sound ∧ d₀.Shallow := by
    rcases hstart with rfl | ⟨bytes, hload⟩
    · exact ⟨sound_empty, shallow_empty⟩
    · exact sound_load hload
  have hkept := hsound₀.1.fields.steps Json.closed_sound
    (fun s hs => s.settingsAre_sound (hsettings s hs)) hsteps
  have hsound : d.Sound := ⟨hkept.2 ▸ hsound₀.1.extra, hkept.1⟩
  have hload := load_bytes hsound hfloats
  have hdepth := toJson_depth_le hsound
  have hyes (h : d.Shallow) : load d.bytes = .ok d := by
    rw [hload, if_pos (hdepth.2 h)]
  have hno (h : ¬d.Shallow) : load d.bytes = .error (.document .notJson) := by
    rw [hload, if_neg (mt hdepth.1 h)]
  refine ⟨⟨fun h => ?_, hyes⟩, hno, fun h => hyes ?_⟩
  · by_cases hs : d.Shallow
    · exact hs
    · rw [hno hs] at h
      cases h
  · exact (hsound₀.2.steps (Json.closed_depth _) h hsteps).1

/-- A manager whose settings are given as arguments. -/
def managerStep (settings : Settings) : Step :=
  .request (.manager ⟨"m", .aws, settings⟩) .standard

/-- The document of that manager alone. -/
def managerDocument (settings : Settings) : Document :=
  empty.put ModuleName.manager
    (ManagerView.mk (Sources.standard.manager .aws) "m" settings).toRecord

theorem managerStep_attempt {settings : Settings}
    (h : settings.check ManagerView.fields = .ok ()) :
    (managerStep settings).attempt empty = .ok (managerDocument settings) := by
  have hplain : ModuleName.IsPlain ModuleName.manager := by decide
  have hput := addRecord_ofFields empty hplain
    (ManagerView.mk (Sources.standard.manager .aws) "m" settings).toRecord
  have hrun : ManagerRequest.run ⟨"m", .aws, settings⟩ .standard empty =
      .ok (ModuleName.manager, managerDocument settings) := by
    have hname : ("m" : String) ≠ "" := by decide
    rw [ManagerRequest.run, if_neg hname, h]
    simp only [setManager, hput]
    rfl
  rw [managerStep, Step.attempt, Request.attempt, ManagerRequest.change, Change.attempt,
    Change.ofResult, hrun]
  rfl

theorem managerDocument_numbers {Q : Json.Number → Prop} {settings : Settings}
    (hcheck : settings.check ManagerView.fields = .ok ())
    (h : settings.All fun v => ∀ n ∈ v.numbers, Q n) :
    ∀ n ∈ (managerDocument settings).toJson.numbers, Q n := by
  obtain ⟨hfields, hextra⟩ := FieldsAre.step (d := empty) (s := managerStep settings)
    (Json.closed_numbers Q) Dict.all_empty h (managerStep_attempt hcheck)
  exact toJson_numbers (hextra ▸ Dict.all_empty) hfields

/-- A setting of one and a half. -/
def fraction : Settings :=
  Dict.empty.insert "size" (.number (.float ⟨0x3FF8000000000000⟩))

theorem settings_fraction : SetArgument.settings ["size=1.5"] = .ok fraction := by
  have hvalue : SetArgument.value "1.5" = .number (.float ⟨0x3FF8000000000000⟩) := by
    decide +kernel
  have hsingle := SetArgument.settings_single "size" "1.5" (by decide) (by decide) (by decide)
  rw [hvalue] at hsingle
  exact hsingle

theorem reopens_iff_fraction :
    load (managerDocument fraction).bytes = .ok (managerDocument fraction) := by
  have hcheck : fraction.check ManagerView.fields = .ok () := rfl
  have hfloat : fraction.All fun v => ∀ n ∈ v.numbers, n.ReadsBack := by
    refine Dict.all_empty.insert fun n hn => ?_
    cases List.mem_singleton.1 hn
    decide +kernel
  have hshallow : fraction.All fun v => v.depth ≤ fieldDepth := by
    refine Dict.all_empty.insert ?_
    decide
  refine (@reopens_iff empty _ [managerStep fraction] (.inl rfl) ?_ ?_ ?_).2.2 ?_
  · exact List.forall_mem_singleton.2 ⟨["size=1.5"], settings_fraction⟩
  · rw [List.foldlM_cons, managerStep_attempt hcheck]
    rfl
  · exact fun x hx => managerDocument_numbers hcheck hfloat _ hx
  · exact List.forall_mem_singleton.2 hshallow

/-! ## A setting nested too deeply -/

/-- Arrays inside each other, `n` of them around an empty one. -/
def nested : Nat → Json
  | 0 => .array []
  | n + 1 => .array [nested n]

/-- Opening brackets and as many closing ones. -/
def brackets (n : Nat) : List Char :=
  List.replicate n '[' ++ List.replicate n ']'

theorem tokens_nested (n : Nat) : (nested n).tokens =
    List.replicate (n + 1) .openArray ++ List.replicate (n + 1) .closeArray := by
  induction n with
  | zero => rfl
  | succ n ih =>
    rw [nested, Json.tokens, ih, Json.tokensItems, List.replicate_succ (n := n + 1),
      List.replicate_succ' (n := n + 1) (a := Json.Token.closeArray)]
    simp only [List.append_nil, List.append_assoc, List.cons_append]

theorem scan_replicate {c : Char} {t : Json.Token}
    (hc : ∀ ts, Json.outsideStep ts c = ⟨.between, t :: ts⟩) (n : Nat) (ts : List Json.Token) :
    Json.Scanner.scan ⟨.between, ts⟩ (List.replicate n c) =
      some ⟨.between, List.replicate n t ++ ts⟩ := by
  induction n generalizing ts with
  | zero => rfl
  | succ n ih =>
    rw [List.replicate_succ, Json.Scanner.scan_cons, Json.Scanner.step?, Option.map_some, hc,
      Option.bind_some, ih, List.replicate_succ']
    simp

theorem tokens?_brackets (n : Nat) : Json.tokens? (brackets n) =
    some (List.replicate n .openArray ++ List.replicate n .closeArray) := by
  have hscan : Json.Scanner.scan ⟨.between, []⟩ (brackets n) = some ⟨.between,
      List.replicate n .closeArray ++ (List.replicate n .openArray ++ [])⟩ := by
    rw [brackets, Json.Scanner.scan_append, scan_replicate (t := .openArray) (fun _ => rfl),
      Option.bind_some, scan_replicate (t := .closeArray) (fun _ => rfl)]
  rw [Json.tokens?, Json.Scanner.run?, ← Json.Scanner.scan, hscan, Option.bind_some,
    Json.Scanner.finish?]
  simp

theorem ordered_nested (n : Nat) : (nested n).Ordered := by
  induction n with
  | zero => trivial
  | succ n ih => exact ⟨ih, trivial⟩

theorem depth_nested (n : Nat) : (nested n).depth = n + 1 := by
  induction n with
  | zero => rfl
  | succ n ih => rw [nested, Json.depth, Json.depthItems, Json.depthItems, ih, Nat.max_zero]

theorem numbers_nested (n : Nat) : (nested n).numbers = [] := by
  induction n with
  | zero => rfl
  | succ n ih => rw [nested, Json.numbers, Json.numbersItems, ih]; rfl

theorem read?_brackets {n : Nat} (h : n + 1 ≤ Json.maxDepth) :
    Json.read? (String.ofList (brackets (n + 1))) = some (nested n) := by
  rw [Json.read?, String.toList_ofList, Json.parse?, tokens?_brackets, Option.bind_some,
    ← tokens_nested, Json.ofTokens?_tokens, if_pos (by rw [depth_nested]; exact h),
    Option.map_some, Json.canonical_of_ordered _ (ordered_nested n)]

/-- A setting that is read from an argument, but nested too deeply for a field. -/
def deep : Settings :=
  Dict.empty.insert "note" (nested 124)

theorem settings_deep :
    SetArgument.settings ["note" ++ "=" ++ String.ofList (brackets 125)] = .ok deep := by
  have hvalue : SetArgument.value (String.ofList (brackets 125)) = nested 124 := by
    rw [SetArgument.value, read?_brackets (by decide)]
    rfl
  have hsingle := SetArgument.settings_single "note" (String.ofList (brackets 125)) (by decide)
    (by decide) (by decide)
  rw [hvalue] at hsingle
  exact hsingle

theorem managerDocument_deep_not_shallow : ¬(managerDocument deep).Shallow := by
  intro hshallow
  have hdepth : (nested 124).depth ≤ fieldDepth :=
    hshallow ModuleName.manager _ rfl "note" (nested 124) rfl
  rw [depth_nested] at hdepth
  revert hdepth
  decide

/-- The document of such a setting is made, and its bytes are no document. -/
theorem deep_setting_not_reopened : ∃ (settings : Settings) (d : Document),
    SetArgument.settings ["note" ++ "=" ++ String.ofList (brackets 125)] = .ok settings ∧
      (managerStep settings).attempt empty = .ok d ∧
      load d.bytes = .error (.document .notJson) := by
  have hcheck : deep.check ManagerView.fields = .ok () := rfl
  have hattempt := managerStep_attempt hcheck
  have hnumbers : deep.All fun v => ∀ n ∈ v.numbers, False := by
    refine Dict.all_empty.insert fun n hn => ?_
    rw [numbers_nested] at hn
    exact List.not_mem_nil hn
  obtain ⟨hfields, hextra⟩ := FieldsAre.step (d := empty) (s := managerStep deep) Json.closed_sound
    Dict.all_empty (SetArgument.sound_settings settings_deep) hattempt
  have hsound : (managerDocument deep).Sound := ⟨hextra ▸ Dict.all_empty, hfields⟩
  refine ⟨deep, managerDocument deep, settings_deep, hattempt, ?_⟩
  rw [load_bytes hsound fun x hx => (managerDocument_numbers hcheck hnumbers _ hx).elim, if_neg]
  exact mt (toJson_depth_le hsound).1 managerDocument_deep_not_shallow

end Document

end ClusterLedger
