import ClusterLedger.Configuration.Load
import ClusterLedger.Proofs.Except

/-!
# Where a configuration comes from

Of all the places where a configuration may be, exactly one is used, and nothing in the others has
any influence. Variables then replace single fields.
-/
namespace ClusterLedger.Configuration.Surroundings

/-! ## One source -/

/-- Where a configuration comes from: a file, a file that a variable names and that is not there, or
nowhere. -/
inductive Source where
  | file (path : String)
  | absent (path : String)
  | defaults
  deriving DecidableEq

/-- The file of the user. -/
def userFile? (s : Surroundings) : Option String :=
  (s.userFolder? "XDG_CONFIG_HOME" ".config").map fun path =>
    Path.join (Path.join path "clusterform") "config.yaml"

/-- A source is the one to use: every place is used only if nothing is said or found in a place before
it. -/
inductive Chooses (s : Surroundings) : Option String → Source → Prop
  | explicit (path : String) : Chooses s (some path) (.file path)
  | variableFile {path : String} (hset : s.environment.get? "CLUSTERFORM_CONFIG" = some path)
      (hthere : s.holds path = true) : Chooses s none (.file path)
  | variableAbsent {path : String} (hset : s.environment.get? "CLUSTERFORM_CONFIG" = some path)
      (hnot : s.holds path = false) : Chooses s none (.absent path)
  | plain (hunset : s.environment.get? "CLUSTERFORM_CONFIG" = none)
      (hthere : s.holds (Path.join s.folder "clusterform.yaml") = true) :
      Chooses s none (.file (Path.join s.folder "clusterform.yaml"))
  | hidden (hunset : s.environment.get? "CLUSTERFORM_CONFIG" = none)
      (hplain : s.holds (Path.join s.folder "clusterform.yaml") = false)
      (hthere : s.holds (Path.join s.folder ".clusterform.yaml") = true) :
      Chooses s none (.file (Path.join s.folder ".clusterform.yaml"))
  | user {path : String} (hunset : s.environment.get? "CLUSTERFORM_CONFIG" = none)
      (hplain : s.holds (Path.join s.folder "clusterform.yaml") = false)
      (hhidden : s.holds (Path.join s.folder ".clusterform.yaml") = false)
      (hpath : s.userFile? = some path) (hthere : s.holds path = true) : Chooses s none (.file path)
  | defaults (hunset : s.environment.get? "CLUSTERFORM_CONFIG" = none)
      (hplain : s.holds (Path.join s.folder "clusterform.yaml") = false)
      (hhidden : s.holds (Path.join s.folder ".clusterform.yaml") = false)
      (huser : ∀ path, s.userFile? = some path → s.holds path = false) : Chooses s none .defaults

variable {yaml : Yaml.Reader} {s s' : Surroundings} {named : Option String} {path : String}
  {source other : Source}

theorem find_of_set (h : s.environment.get? "CLUSTERFORM_CONFIG" = some path) :
    s.find = if s.holds path then .ok (some path) else .error (.notFound path) := by
  rw [find, h]

theorem find_of_unset (h : s.environment.get? "CLUSTERFORM_CONFIG" = none) :
    s.find = .ok (([Path.join s.folder "clusterform.yaml", Path.join s.folder ".clusterform.yaml"] ++
      s.userFile?.toList).find? s.holds) := by
  rw [find, h, candidates, userFile?]
  cases s.userFolder? "XDG_CONFIG_HOME" ".config" <;> rfl

/-- What looking for a file comes to when a source is to be used. -/
def Source.found : Source → Except Fault (Option String)
  | .file path => .ok (some path)
  | .absent path => .error (.notFound path)
  | .defaults => .ok none

theorem Source.found_injective (h : source.found = other.found) :
    source = other := by
  cases source <;> cases other <;> cases h <;> rfl

theorem find_of_chooses (h : s.Chooses none source) : s.find = source.found := by
  cases h with
  | variableFile hset hthere => rw [find_of_set hset, if_pos hthere]; rfl
  | variableAbsent hset hnot => rw [find_of_set hset, if_neg (by simp [hnot])]; rfl
  | plain hunset hthere => simp [find_of_unset hunset, hthere, Source.found]
  | hidden hunset hplain hthere => simp [find_of_unset hunset, hplain, hthere, Source.found]
  | user hunset hplain hhidden hpath hthere =>
    simp [find_of_unset hunset, hplain, hhidden, hpath, hthere, Source.found]
  | defaults hunset hplain hhidden huser =>
    have hnone : s.userFile?.toList.find? s.holds = none := by
      rw [List.find?_eq_none]
      intro path hpath
      rw [huser path (by simpa using hpath)]
      decide
    simp [find_of_unset hunset, hplain, hhidden, hnone, Source.found]

theorem exists_chooses (s : Surroundings) (named : Option String) :
    ∃ source, s.Chooses named source := by
  cases named with
  | some path => exact ⟨_, .explicit path⟩
  | none =>
    cases hset : s.environment.get? "CLUSTERFORM_CONFIG" with
    | some path =>
      cases hthere : s.holds path with
      | true => exact ⟨_, .variableFile hset hthere⟩
      | false => exact ⟨_, .variableAbsent hset hthere⟩
    | none =>
      cases hplain : s.holds (Path.join s.folder "clusterform.yaml") with
      | true => exact ⟨_, .plain hset hplain⟩
      | false =>
        cases hhidden : s.holds (Path.join s.folder ".clusterform.yaml") with
        | true => exact ⟨_, .hidden hset hplain hhidden⟩
        | false =>
          by_cases huser : ∃ path, s.userFile? = some path ∧ s.holds path = true
          · obtain ⟨path, hpath, hthere⟩ := huser
            exact ⟨_, .user hset hplain hhidden hpath hthere⟩
          · refine ⟨_, .defaults hset hplain hhidden fun path hpath => ?_⟩
            exact Bool.eq_false_iff.2 fun hthere => huser ⟨path, hpath, hthere⟩

theorem Chooses.unique (h : s.Chooses named source) (h' : s.Chooses named other) :
    source = other := by
  cases named with
  | none => exact Source.found_injective ((find_of_chooses h).symm.trans (find_of_chooses h'))
  | some path =>
    cases h
    cases h'
    rfl

/-- What a source says to a reader of YAML. A file that is not there, that cannot be read or that is
malformed says so; a blank one leaves everything at its default, as does no file at all. -/
inductive Says (yaml : Yaml.Reader) (s : Surroundings) : Source → Except Fault Configuration → Prop
  | missing {path : String} (hread : s.read path = .error .missing) :
      Says yaml s (.file path) (.error (.notFound path))
  | unreadable {path : String} {fault : Disk.Fault} (hread : s.read path = .error fault)
      (hfault : fault ≠ .missing) : Says yaml s (.file path) (.error (.system fault))
  | notText {path : String} {bytes : ByteArray} (hread : s.read path = .ok bytes)
      (htext : Text.utf8? bytes = none) : Says yaml s (.file path) (.error (.system .notText))
  | blank {path text : String} {bytes : ByteArray} (hread : s.read path = .ok bytes)
      (htext : Text.utf8? bytes = some text) (hblank : Text.blank text = true) :
      Says yaml s (.file path) (.ok { storage := s.storage })
  | malformed {path text : String} {bytes : ByteArray} (hread : s.read path = .ok bytes)
      (htext : Text.utf8? bytes = some text) (hblank : Text.blank text = false)
      (hnone : ∀ v, yaml text = some v → ofYaml? s.storage v = none) :
      Says yaml s (.file path) (.error (.invalid path))
  | configured {path text : String} {bytes : ByteArray} {v : Yaml} {c : Configuration}
      (hread : s.read path = .ok bytes) (htext : Text.utf8? bytes = some text)
      (hblank : Text.blank text = false) (hyaml : yaml text = some v)
      (hvalue : ofYaml? s.storage v = some c) : Says yaml s (.file path) (.ok c)
  | absent (path : String) : Says yaml s (.absent path) (.error (.notFound path))
  | defaults : Says yaml s .defaults (.ok { storage := s.storage })

/-- What the source comes to. -/
def settings (yaml : Yaml.Reader) (s : Surroundings) : Source → Except Fault Configuration
  | .file path => s.readFile yaml path
  | .absent path => .error (.notFound path)
  | .defaults => .ok { storage := s.storage }

theorem exists_says (yaml : Yaml.Reader) (s : Surroundings) (source : Source) :
    ∃ x, s.Says yaml source x := by
  cases source with
  | absent path => exact ⟨_, .absent path⟩
  | defaults => exact ⟨_, .defaults⟩
  | file path =>
    cases hread : s.read path with
    | error fault =>
      by_cases hfault : fault = .missing
      · exact ⟨_, .missing (hfault ▸ hread)⟩
      · exact ⟨_, .unreadable hread hfault⟩
    | ok bytes =>
      cases htext : Text.utf8? bytes with
      | none => exact ⟨_, .notText hread htext⟩
      | some text =>
        cases hblank : Text.blank text with
        | true => exact ⟨_, .blank hread htext hblank⟩
        | false =>
          cases hvalue : (yaml text).bind (ofYaml? s.storage) with
          | none => exact ⟨_, .malformed hread htext hblank (Option.bind_eq_none_iff.1 hvalue)⟩
          | some c =>
            obtain ⟨v, hyaml, hc⟩ := Option.bind_eq_some_iff.1 hvalue
            exact ⟨_, .configured hread htext hblank hyaml hc⟩

theorem Says.settings_eq {x : Except Fault Configuration} (h : s.Says yaml source x) :
    s.settings yaml source = x := by
  cases h with
  | missing hread => simp only [settings, readFile, hread]
  | @unreadable _ fault hread hfault =>
    cases fault with
    | missing => exact absurd rfl hfault
    | _ => simp only [settings, readFile, hread]
  | notText hread htext => simp only [settings, readFile, hread, htext]
  | blank hread htext hblank => simp [settings, readFile, hread, htext, Configuration.read?, hblank]
  | malformed hread htext hblank hnone =>
    have hvalue := Option.bind_eq_none_iff.2 hnone
    simp [settings, readFile, hread, htext, Configuration.read?, hblank, hvalue]
  | configured hread htext hblank hyaml hc =>
    simp [settings, readFile, hread, htext, Configuration.read?, hblank, hyaml, hc]
  | absent path => rfl
  | defaults => rfl

theorem says_iff {x : Except Fault Configuration} :
    s.Says yaml source x ↔ s.settings yaml source = x := by
  refine ⟨Says.settings_eq, ?_⟩
  rintro rfl
  obtain ⟨x, hx⟩ := exists_says yaml s source
  rwa [hx.settings_eq]

/-- Only the source that is to be used has a say. -/
theorem load_of_chooses (h : s.Chooses named source) :
    s.load yaml named = (s.settings yaml source).map s.override := by
  cases named with
  | some path =>
    cases h
    rw [load, settings]
    cases hread : s.readFile yaml path <;>
      simp [hread, Except.map, bind, Except.bind, pure, Except.pure]
  | none =>
    rw [load, find_of_chooses h]
    cases source with
    | file path =>
      rw [settings]
      cases hread : s.readFile yaml path <;>
        simp [Source.found, hread, Except.map, bind, Except.bind, pure, Except.pure]
    | absent path => rfl
    | defaults => rfl

/-! ## Two runs -/

/-- The variables that replace fields. -/
def overrideVariables : List String :=
  ["CLUSTERFORM_TERRAFORM_BINARY", "CLUSTERFORM_SOURCE_URL", "CLUSTERFORM_STATE_DIR",
    "CLUSTERFORM_REMOTE_TOKEN"]

/-- What is the same in two runs: what the source holds, the variables that replace fields, and the
folder of states unless configured otherwise. -/
structure Agrees (s s' : Surroundings) (source : Source) : Prop where
  contents : ∀ path, source = .file path → s'.read path = s.read path
  overrides : ∀ name ∈ overrideVariables, s'.environment.get? name = s.environment.get? name
  stateFolder : s'.stateFolder = s.stateFolder

theorem Agrees.settings (h : s.Agrees s' source) :
    s'.settings yaml source = s.settings yaml source := by
  have hstorage : s'.storage = s.storage := congrArg Storage.folder h.stateFolder
  cases source with
  | file path => simp only [Surroundings.settings, readFile, h.contents path rfl, hstorage]
  | absent path => rfl
  | defaults => simp only [Surroundings.settings, hstorage]

theorem Agrees.value? (h : s.Agrees s' source) {name : String} (hname : name ∈ overrideVariables) :
    s'.value? name = s.value? name := by
  rw [Surroundings.value?, Surroundings.value?, h.overrides name hname]

theorem Agrees.override (h : s.Agrees s' source) : s'.override = s.override := by
  funext c
  simp only [Surroundings.override, h.value? (show "CLUSTERFORM_TERRAFORM_BINARY" ∈ _ by decide),
    h.value? (show "CLUSTERFORM_SOURCE_URL" ∈ _ by decide),
    h.value? (show "CLUSTERFORM_STATE_DIR" ∈ _ by decide),
    h.value? (show "CLUSTERFORM_REMOTE_TOKEN" ∈ _ by decide)]

/-! ## Single fields -/

/-- A variable is not set to anything. -/
def Unset (s : Surroundings) (name : String) : Prop :=
  ∀ x, s.environment.get? name = some x → x = ""

/-- A field that a variable replaces if it is set to anything. -/
inductive Replaced (s : Surroundings) (name : String) : Option String → Option String → Prop
  | given {x : String} (h : s.environment.get? name = some x) (hx : x ≠ "") (old : Option String) :
    Replaced s name old (some x)
  | kept (h : s.Unset name) (old : Option String) : Replaced s name old old

/-- A storage that variables replace: a folder of states takes the place of any storage, and a token is
one for the storage that is left, if that is remote. -/
inductive StorageReplaced (s : Surroundings) : Storage → Storage → Prop
  | moved {path : String} (h : s.environment.get? "CLUSTERFORM_STATE_DIR" = some path)
      (hpath : path ≠ "") (old : Storage) : StorageReplaced s old (.folder path)
  | folder (h : s.Unset "CLUSTERFORM_STATE_DIR") (path : String) :
      StorageReplaced s (.folder path) (.folder path)
  | remote (h : s.Unset "CLUSTERFORM_STATE_DIR") (url path : String) {token token' : Option String}
      (htoken : s.Replaced "CLUSTERFORM_REMOTE_TOKEN" token token') :
      StorageReplaced s (.remote url path token) (.remote url path token')

/-- A configuration in which each variable has replaced its own field. -/
structure Overridden (s : Surroundings) (c c' : Configuration) : Prop where
  terraformBinary :
    s.Replaced "CLUSTERFORM_TERRAFORM_BINARY" c.terraformBinary c'.terraformBinary
  sourceUrl : s.Replaced "CLUSTERFORM_SOURCE_URL" c.sourceUrl c'.sourceUrl
  storage : s.StorageReplaced c.storage c'.storage
  lockStaleAfter : c'.lockStaleAfter = c.lockStaleAfter
  terraformVariables : c'.terraformVariables = c.terraformVariables

theorem value?_eq_some {name x : String} :
    s.value? name = some x ↔ s.environment.get? name = some x ∧ x ≠ "" := by
  simp [value?, Option.filter_eq_some_iff]

theorem value?_eq_none {name : String} : s.value? name = none ↔ s.Unset name := by
  simp [value?, Unset, Option.filter_eq_none_iff]

theorem replaced_iff {name : String} {old new : Option String} :
    s.Replaced name old new ↔ new = (s.value? name).or old := by
  constructor
  · rintro (⟨h, hx, -⟩ | ⟨h, -⟩)
    · rw [value?_eq_some.2 ⟨h, hx⟩, Option.some_or]
    · rw [value?_eq_none.2 h, Option.none_or]
  · rintro rfl
    cases hvalue : s.value? name with
    | none => exact .kept (value?_eq_none.1 hvalue) old
    | some x => exact .given (value?_eq_some.1 hvalue).1 (value?_eq_some.1 hvalue).2 old

theorem storageReplaced_iff {c : Configuration} {new : Storage} :
    s.StorageReplaced c.storage new ↔ new = (s.override c).storage := by
  rw [override]
  constructor
  · intro h
    generalize c.storage = old at h
    cases h with
    | moved h hpath => rw [value?_eq_some.2 ⟨h, hpath⟩]
    | folder h path => rw [value?_eq_none.2 h]
    | remote h url path htoken => rw [value?_eq_none.2 h, replaced_iff.1 htoken]
  · rintro rfl
    cases hvalue : s.value? "CLUSTERFORM_STATE_DIR" with
    | some path => exact .moved (value?_eq_some.1 hvalue).1 (value?_eq_some.1 hvalue).2 c.storage
    | none =>
      have hunset := value?_eq_none.1 hvalue
      cases hold : c.storage with
      | folder path => exact .folder hunset path
      | remote url path token => exact .remote hunset url path (replaced_iff.2 rfl)

theorem overridden_iff {c c' : Configuration} : s.Overridden c c' ↔ c' = s.override c := by
  constructor
  · intro h
    obtain ⟨binary, url, storage, lock, environment⟩ := c'
    obtain ⟨hbinary, hurl, hstorage, hlock, hvariables⟩ := h
    obtain rfl : binary = _ := replaced_iff.1 hbinary
    obtain rfl : url = _ := replaced_iff.1 hurl
    obtain rfl : storage = _ := storageReplaced_iff.1 hstorage
    obtain rfl : lock = _ := hlock
    obtain rfl : environment = _ := hvariables
    rfl
  · rintro rfl
    exact ⟨replaced_iff.2 rfl, replaced_iff.2 rfl, storageReplaced_iff.2 rfl, rfl, rfl⟩

/-- A configuration has one source. What is loaded is what that source says, with the fields that
variables replace, or the fault of that source; and nothing else has any influence. -/
theorem load_one_winner (yaml : Yaml.Reader) (s : Surroundings) (named : Option String) :
    ∃ source, s.Chooses named source ∧ (∀ other, s.Chooses named other → other = source) ∧
      (∀ fault, s.load yaml named = .error fault ↔ s.Says yaml source (.error fault)) ∧
      (∀ c', s.load yaml named = .ok c' ↔ ∃ c, s.Says yaml source (.ok c) ∧ s.Overridden c c') ∧
      ∀ s' named', s'.Chooses named' source → s.Agrees s' source →
        s'.load yaml named' = s.load yaml named := by
  obtain ⟨source, hsource⟩ := s.exists_chooses named
  have hload : s.load yaml named = (s.settings yaml source).map s.override :=
    load_of_chooses hsource
  refine ⟨source, hsource, fun other hother => hother.unique hsource, fun fault => ?_, fun c' => ?_,
    fun s' named' hsource' hagrees => ?_⟩
  · rw [hload, says_iff]
    cases s.settings yaml source <;> simp [Except.map]
  · rw [hload, Except.map_eq_ok]
    refine exists_congr fun c => and_congr says_iff.symm ?_
    rw [overridden_iff, eq_comm]
  · rw [hload, load_of_chooses hsource', hagrees.settings, hagrees.override]

end ClusterLedger.Configuration.Surroundings
