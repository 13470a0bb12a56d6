import ClusterLedger.Proofs.Document.Basic
import ClusterLedger.Proofs.Text.Digits

/-!
# Values by dotted paths

A value inside of a document stands at a place: a module or another key at the top, and the steps down
from there. A dotted path leads to the values at the places that it spells and to nothing else, and
a change of one module is seen on the paths into that module only.
-/
namespace ClusterLedger

open Text (Denotes Splits)

/-! ## Places in a value -/

namespace Json

/-- A step into an object or an array. A position is a word, as in every list that fits in memory. -/
inductive Step where
  | key (name : String)
  | position (i : UInt64)
  deriving DecidableEq, Repr

/-- The value that one step leads to. -/
inductive Child : Json → Step → Json → Prop
  | member {members name v} (h : Entries.get? name members = some v) :
      Child (.object members) (.key name) v
  | item {items i v} (h : items[i.toNat]? = some v) : Child (.array items) (.position i) v

/-- The value at a place inside of another one. -/
inductive At : Json → List Step → Json → Prop
  | here {v} : At v [] v
  | step {v s steps u w} (h : Child v s u) (hrest : At u steps w) : At v (s :: steps) w

/-- The segments that a step is spelled by: a key by itself, a position by digits that denote it. -/
inductive Step.SpelledBy : Step → String → Prop
  | key (name : String) : SpelledBy (.key name) name
  | position {i : UInt64} {s : String} (h : Denotes s.toList i.toNat) : SpelledBy (.position i) s

variable {v w : Json} {segment : String} {segments : List String}

theorem index?_eq_some {n : Nat} :
    index? segment = some n ↔ ∃ i : UInt64, i.toNat = n ∧ Denotes segment.toList n := by
  rw [index?, Text.unsigned?_eq_some]
  constructor
  · rintro ⟨hlimit, h⟩
    exact ⟨UInt64.ofNat n, UInt64.toNat_ofNat_of_lt' hlimit, h⟩
  · rintro ⟨i, rfl, h⟩
    exact ⟨i.toNat_lt, h⟩

theorem step?_eq_some :
    v.step? segment = some w ↔ ∃ s : Step, s.SpelledBy segment ∧ v.Child s w := by
  constructor
  · intro h
    cases v with
    | object members => exact ⟨_, .key segment, .member h⟩
    | array items =>
      obtain ⟨n, hn, hitem⟩ := Option.bind_eq_some_iff.1 h
      obtain ⟨i, rfl, hspells⟩ := index?_eq_some.1 hn
      exact ⟨_, .position hspells, .item hitem⟩
    | null | bool _ | number _ | string _ => cases h
  · rintro ⟨s, hspells, hchild⟩
    cases hchild with
    | member h =>
      cases hspells
      exact h
    | item h =>
      cases hspells with
      | position hdenotes =>
        exact Option.bind_eq_some_iff.2 ⟨_, index?_eq_some.2 ⟨_, rfl, hdenotes⟩, h⟩

theorem navigate_eq_some : navigate segments v = some w ↔
    ∃ steps, List.Forall₂ Step.SpelledBy steps segments ∧ v.At steps w := by
  induction segments generalizing v with
  | nil =>
    constructor
    · intro h
      cases h
      exact ⟨[], .nil, .here⟩
    · rintro ⟨steps, hspells, hat⟩
      cases hspells
      cases hat
      rfl
  | cons segment rest ih =>
    rw [navigate, Option.bind_eq_some_iff]
    constructor
    · rintro ⟨u, hstep, hrest⟩
      obtain ⟨s, hspells, hchild⟩ := step?_eq_some.1 hstep
      obtain ⟨steps, hspellsRest, hat⟩ := ih.1 hrest
      exact ⟨s :: steps, .cons hspells hspellsRest, .step hchild hat⟩
    · rintro ⟨steps, hspells, hat⟩
      cases hspells with
      | cons hfirst hspellsRest =>
        cases hat with
        | step hchild hrest =>
          exact ⟨_, step?_eq_some.2 ⟨_, hfirst, hchild⟩, ih.2 ⟨_, hspellsRest, hrest⟩⟩

/-- A dotted path leads from one value to another inside of it. -/
def Leads (path : String) (v w : Json) : Prop :=
  ∃ parts steps, Splits parts path ∧ List.Forall₂ Step.SpelledBy steps parts ∧ v.At steps w

theorem leads_iff {path : String} :
    Leads path v w ↔ navigate (Text.segments '.' path) v = some w := by
  rw [navigate_eq_some]
  constructor
  · rintro ⟨parts, steps, hsplits, hspells, hat⟩
    rw [hsplits.segments_eq]
    exact ⟨steps, hspells, hat⟩
  · rintro ⟨steps, hspells, hat⟩
    exact ⟨_, steps, Text.splits_segments path, hspells, hat⟩

/-! ## Written steps -/

namespace Step

/-- A step as it is written, a position in decimal. -/
def text : Step → String
  | key name => name
  | position i => String.ofList (Text.digits i.toNat)

/-- A step that can be a segment: its key has no dot. -/
def Dotless : Step → Prop
  | key name => '.' ∉ name.toList
  | position _ => True

variable {s : Step} {steps : List Step}

theorem spelledBy_text (s : Step) : s.SpelledBy s.text := by
  cases s with
  | key name => exact .key name
  | position i =>
    refine .position ?_
    rw [text, String.toList_ofList]
    exact Text.denotes_digits i.toNat

theorem spelledBy_texts (steps : List Step) : List.Forall₂ SpelledBy steps (steps.map text) := by
  induction steps with
  | nil => exact .nil
  | cons s rest ih => exact .cons s.spelledBy_text ih

theorem Dotless.text (h : s.Dotless) : '.' ∉ s.text.toList := by
  cases s with
  | key name => exact h
  | position i =>
    intro hdot
    rw [Step.text, String.toList_ofList] at hdot
    have hdigit := Text.isDigit_of_mem_digits hdot
    revert hdigit
    decide

theorem dotless_texts (h : ∀ s ∈ steps, s.Dotless) : ∀ part ∈ steps.map text, '.' ∉ part.toList := by
  intro part hpart
  obtain ⟨s, hs, rfl⟩ := List.mem_map.1 hpart
  exact (h s hs).text

end Step

end Json

namespace Document

open Json (Step)

/-! ## Places in a document -/

/-- Where a value stands in a document. -/
inductive Place where
  | module (name : String) (steps : List Step)
  | other (key : String) (steps : List Step)
  deriving DecidableEq, Repr

/-- The value at a place. -/
inductive At (d : Document) : Place → Json → Prop
  | module {name r steps w} (hr : d.module? name = some r) (h : (Json.ofFields r).At steps w) :
      d.At (.module name steps) w
  | other {key v steps w} (hv : d.extra.get? key = some v) (h : v.At steps w) :
      d.At (.other key steps) w

/-- The segments that a place is spelled by. -/
inductive Place.SpelledBy : Place → List String → Prop
  | module {name steps parts} (h : List.Forall₂ Step.SpelledBy steps parts) :
      SpelledBy (.module name steps) (moduleKey :: name :: parts)
  | other {key steps parts} (h : List.Forall₂ Step.SpelledBy steps parts) :
      SpelledBy (.other key steps) (key :: parts)

/-- A dotted path spells a place. -/
def Place.Spells (path : String) (p : Place) : Prop :=
  ∃ parts, Splits parts path ∧ p.SpelledBy parts

namespace Place

/-- The segments of a place as it is written. -/
def segments : Place → List String
  | module name steps => moduleKey :: name :: steps.map Step.text
  | other key steps => key :: steps.map Step.text

/-- The dotted path of a place. -/
def path (p : Place) : String :=
  Text.join "." p.segments

/-- No key on the way to a place has a dot. -/
def Dotless : Place → Prop
  | module name steps => '.' ∉ name.toList ∧ ∀ s ∈ steps, s.Dotless
  | other key steps => '.' ∉ key.toList ∧ ∀ s ∈ steps, s.Dotless

theorem spelledBy_segments (p : Place) : p.SpelledBy p.segments := by
  cases p with
  | module name steps => exact .module (Step.spelledBy_texts steps)
  | other key steps => exact .other (Step.spelledBy_texts steps)

theorem Dotless.splits {p : Place} (h : p.Dotless) : Splits p.segments p.path := by
  cases p with
  | module name steps =>
    have hkey : '.' ∉ moduleKey.toList := by decide
    refine ⟨nofun, ?_, rfl⟩
    exact List.forall_mem_cons.2 ⟨hkey, List.forall_mem_cons.2 ⟨h.1, Step.dotless_texts h.2⟩⟩
  | other key steps =>
    exact ⟨nofun, List.forall_mem_cons.2 ⟨h.1, Step.dotless_texts h.2⟩, rfl⟩

theorem Dotless.spells {p : Place} (h : p.Dotless) : p.Spells p.path :=
  ⟨p.segments, h.splits, p.spelledBy_segments⟩

end Place

/-! ## What paths lead to -/

variable {d d' : Document} {w : Json} {parts : List String}
  {name given path : String}

theorem find?_module (d : Document) (name : String) (parts : List String) :
    d.find? (moduleKey :: name :: parts) =
      (d.module? name).bind fun r => (Json.ofFields r).navigate parts := by
  rw [find?, if_pos rfl]

theorem find?_other {key : String} (h : key ≠ moduleKey) (parts : List String) :
    d.find? (key :: parts) = (d.extra.get? key).bind (Json.navigate parts) := by
  cases parts with
  | nil => rw [find?, if_neg h]
  | cons part parts => rw [find?, if_neg h]

theorem find?_eq_some :
    d.find? parts = some w ↔ ∃ p : Place, p.SpelledBy parts ∧ d.At p w := by
  constructor
  · intro h
    cases parts with
    | nil => cases h
    | cons head rest =>
      by_cases hhead : head = moduleKey
      · subst hhead
        cases rest with
        | nil => cases h
        | cons name parts =>
          rw [find?_module, Option.bind_eq_some_iff] at h
          obtain ⟨r, hr, hnavigate⟩ := h
          obtain ⟨steps, hspells, hat⟩ := Json.navigate_eq_some.1 hnavigate
          exact ⟨_, .module hspells, .module hr hat⟩
      · rw [find?_other hhead, Option.bind_eq_some_iff] at h
        obtain ⟨v, hv, hnavigate⟩ := h
        obtain ⟨steps, hspells, hat⟩ := Json.navigate_eq_some.1 hnavigate
        exact ⟨_, .other hspells, .other hv hat⟩
  · rintro ⟨p, hspells, hat⟩
    cases hat with
    | module hr h =>
      cases hspells with
      | module hparts =>
        rw [find?_module, Option.bind_eq_some_iff]
        exact ⟨_, hr, Json.navigate_eq_some.2 ⟨_, hparts, h⟩⟩
    | @other key v steps w hv h =>
      cases hspells with
      | other hparts =>
        -- the modules stand under no other key
        have hkey : key ≠ moduleKey := by
          rintro rfl
          rw [d.extra_module] at hv
          cases hv
        rw [find?_other hkey, Option.bind_eq_some_iff]
        exact ⟨_, hv, Json.navigate_eq_some.2 ⟨_, hparts, h⟩⟩

/-- A path leads to the values at the places that it spells. -/
theorem get?_eq_some : d.get? path = some w ↔ ∃ p : Place, p.Spells path ∧ d.At p w := by
  rw [get?, find?_eq_some]
  constructor
  · rintro ⟨p, hspells, hat⟩
    exact ⟨p, ⟨_, Text.splits_segments path, hspells⟩, hat⟩
  · rintro ⟨p, ⟨parts, hsplits, hspells⟩, hat⟩
    rw [hsplits.segments_eq]
    exact ⟨p, hspells, hat⟩

/-! ## Changing one module -/

/-- In two documents a path leads to the same unless it leads to the module of a name, where the
second one has a value, or nothing. -/
structure Renews (d d' : Document) (name : String) (record : Option Json) : Prop where
  whole : d'.get? ("module." ++ name) = record
  inside : ∀ path w, d'.get? ("module." ++ name ++ "." ++ path) = some w ↔
    ∃ r, record = some r ∧ Json.Leads path r w
  frame : ∀ path, path ≠ "module." ++ name →
    (∀ rest, path ≠ "module." ++ name ++ "." ++ rest) → d'.get? path = d.get? path

theorem get?_inside (d : Document) (hname : '.' ∉ name.toList) (path : String) :
    d.get? ("module." ++ name ++ "." ++ path) =
      (d.module? name).bind fun r => (Json.ofFields r).navigate (Text.segments '.' path) := by
  have hsegments : Text.segments '.' ("module." ++ name ++ "." ++ path) =
      moduleKey :: name :: Text.segments '.' path := by
    rw [Text.segments_append_dot, segments_module, Text.segments_of_not_mem hname]
    rfl
  rw [get?, hsegments, find?_module]

/-- A path whose first segments are those of a module is the path of the module, or leads on. -/
theorem path_of_segments
    (h : Text.segments '.' path = moduleKey :: name :: parts) :
    path = "module." ++ name ∨ ∃ rest, path = "module." ++ name ++ "." ++ rest := by
  have hjoined := (Text.splits_iff.2 h).joined
  rw [Text.join] at hjoined
  cases parts with
  | nil =>
    refine .inl (hjoined.trans ?_)
    rw [String.intercalate_cons_cons, String.intercalate_singleton]
    rfl
  | cons part parts =>
    refine .inr ⟨Text.join "." (part :: parts), hjoined.trans ?_⟩
    rw [String.intercalate_cons_cons, String.intercalate_cons_cons, Text.join,
      ← String.append_assoc, ← String.append_assoc]
    rfl

/-- Documents that differ in one module differ on the paths into that module. -/
theorem renews_of_module? (hname : '.' ∉ name.toList)
    (hmodules : ∀ k, k ≠ name → d'.module? k = d.module? k) (hextra : d'.extra = d.extra) :
    d.Renews d' name ((d'.module? name).map Json.ofFields) where
  whole := get?_module hname
  inside path w := by
    simp only [get?_inside d' hname, Json.leads_iff, Option.bind_eq_some_iff,
      Option.map_eq_some_iff]
    constructor
    · rintro ⟨r, hr, h⟩
      exact ⟨_, ⟨r, hr, rfl⟩, h⟩
    · rintro ⟨_, ⟨r, hr, rfl⟩, h⟩
      exact ⟨r, hr, h⟩
  frame path hwhole hinside := by
    rw [get?, get?]
    cases hsegments : Text.segments '.' path with
    | nil => rfl
    | cons head rest =>
      by_cases hhead : head = moduleKey
      · subst hhead
        cases rest with
        | nil => rfl
        | cons k parts =>
          have hk : k ≠ name := by
            rintro rfl
            rcases path_of_segments hsegments with h | ⟨rest, h⟩
            · exact hwhole h
            · exact hinside rest h
          rw [find?_module, find?_module, hmodules k hk]
      · rw [find?_other hhead, find?_other hhead, hextra]

/-- A name given bare or as a path. -/
theorem ofPath_given (hname : '.' ∉ name.toList)
    (hgiven : given = name ∨ given = "module." ++ name) : ModuleName.ofPath given = name := by
  rcases hgiven with rfl | rfl
  · exact ModuleName.ofPath_of_dotless hname
  · exact ModuleName.ofPath_path name

theorem renews_put (d : Document) (hname : '.' ∉ name.toList) (r : Record) :
    d.Renews (d.put name r) name (some (.ofFields r)) := by
  have h : d.Renews (d.put name r) name _ := renews_of_module? hname
    (fun k hk => by rw [module?_put, if_neg hk.symm]) rfl
  rwa [module?_put, if_pos rfl] at h

theorem renews_remove (d : Document) (hname : '.' ∉ name.toList)
    (hgiven : given = name ∨ given = "module." ++ name) : d.Renews (d.remove given) name none := by
  have hself := ofPath_given hname hgiven
  have h : d.Renews (d.remove given) name _ := renews_of_module? hname
    (fun k hk => by rw [module?_remove, hself, if_neg hk.symm]) rfl
  rwa [module?_remove, hself, if_pos rfl] at h

/-- Dotted paths lead to all values that they spell and to nothing else. A record that is added
replaces what its module was, one that is removed leaves nothing, and no other path notices. -/
theorem paths_exact (d : Document) :
    (∀ path w, d.get? path = some w ↔ ∃ p : Place, p.Spells path ∧ d.At p w) ∧
    (∀ p w, p.Dotless → d.At p w → d.get? p.path = some w) ∧
    ∀ name given, ModuleName.IsPlain name → given = name ∨ given = "module." ++ name →
      (∀ members, ∃ d', d.add given (.object members) = .ok d') ∧
      (∀ record d', d.add given record = .ok d' → ∃ fields, record.fields? = some fields ∧
        d.Renews d' name (some (.ofFields fields))) ∧
      d.Renews (d.remove given) name none := by
  refine ⟨fun path w => get?_eq_some, ?_, ?_⟩
  · intro p w hdotless hat
    exact get?_eq_some.2 ⟨p, hdotless.spells, hat⟩
  · intro name given hname hgiven
    have hself := ofPath_given hname.2 hgiven
    refine ⟨?_, ?_, renews_remove d hname.2 hgiven⟩
    · intro members
      refine ⟨d.put name (Dict.ofList members), ?_⟩
      rw [add_eq_ok, hself]
      exact ⟨hname, _, rfl, rfl⟩
    · intro record d' hadd
      obtain ⟨-, fields, hfields, rfl⟩ := add_eq_ok.1 hadd
      rw [hself]
      exact ⟨fields, hfields, renews_put d hname.2 fields⟩

/-- A module with an object in an array in its record. -/
def mixed : Document :=
  empty.put "m" (.ofList [("a", .array [.null, .object [("1", .string "x")]])])

/-- The place of a text in it. -/
def mixedPlace : Place :=
  .module "m" [.key "a", .position 1, .key "1"]

/-- The text is found by its path, and on no path once the module is replaced or removed. -/
theorem paths_exact_mixed : mixedPlace.path = "module.m.a.1.1" ∧ mixedPlace.Dotless ∧
    mixed.At mixedPlace (.string "x") ∧ mixed.get? "module.m.a.1.1" = some (.string "x") ∧
    (∃ d', mixed.add "module.m" (.object []) = .ok d' ∧ mixed.Renews d' "m" (some (.object []))) ∧
    mixed.Renews (mixed.remove "module.m") "m" none := by
  have hpath : mixedPlace.path = "module.m.a.1.1" := by decide +kernel
  have hdotless : mixedPlace.Dotless :=
    ⟨by decide, by simp [Step.Dotless]⟩
  have hat : mixed.At mixedPlace (.string "x") :=
    .module rfl (.step (.member rfl) (.step (.item rfl) (.step (.member rfl) .here)))
  have hfound := (paths_exact mixed).2.1 mixedPlace _ hdotless hat
  obtain ⟨hadds, hadded, hremoved⟩ :=
    (paths_exact mixed).2.2 "m" "module.m" (by decide) (.inr rfl)
  obtain ⟨d', hadd⟩ := hadds []
  obtain ⟨fields, hfields, hrenews⟩ := hadded _ d' hadd
  cases hfields
  exact ⟨hpath, hdotless, hat, hpath ▸ hfound, ⟨d', hadd, hrenews⟩, hremoved⟩

end Document

end ClusterLedger
