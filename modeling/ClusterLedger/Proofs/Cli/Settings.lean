import ClusterLedger.Cli.SetArgument
import ClusterLedger.Proofs.Json.Sound
import ClusterLedger.Proofs.Json.Texts
import ClusterLedger.Proofs.Text.Affix
import Mathlib.Data.List.Forall2

/-!
# Settings from arguments

An argument is taken apart at its first mark: a key with white space around it, and a text that is
read as JSON or stands for itself. All settings can be given in this way.
-/
namespace ClusterLedger.SetArgument

/-! ## What an argument says -/

/-- A key as it can be given: not empty, without the mark, and without white space at its ends. -/
structure Key (key : String) : Prop where
  ne_empty : key ≠ ""
  unmarked : '=' ∉ key.toList
  trimmed : Text.Trimmed Text.isBlank key.toList

/-- The argument has the key, with white space around it, in front of the mark and the text behind. -/
inductive Gives (argument key text : String) : Prop
  | intro (left right : String) (form : argument = left ++ key ++ right ++ "=" ++ text)
    (blankLeft : Text.blank left = true) (blankRight : Text.blank right = true)

/-- The fault of an argument without a mark, or with nothing but white space in front of it. -/
inductive Refused (argument : String) : Fault → Prop
  | noValue (unmarked : '=' ∉ argument.toList) : Refused argument (.noValue argument)
  | noKey (left text : String) (form : argument = left ++ "=" ++ text)
    (blank : Text.blank left = true) : Refused argument (.noKey argument)

/-- The value of a text: what it spells as JSON, of a repeated member the last one, or where it is no
JSON the text itself. -/
inductive Means (text : String) : Json → Prop
  | json {v : Json} (spelled : Json.TextOf v text.toList) (shallow : v.depth ≤ 127) :
    Means text v.canonical
  | text (unread : ∀ v, Json.TextOf v text.toList → 127 < v.depth) : Means text (.string text)

/-- A value that can be written as JSON and read again. -/
structure Expressible (v : Json) : Prop where
  sound : v.Sound
  shallow : v.depth ≤ 127
  floats : ∀ x, .float x ∈ v.numbers → (Json.Number.float x).ReadsBack

/-! ## One argument -/

theorem value_eq_iff {text : String} {v : Json} : value text = v ↔ Means text v := by
  rw [value]
  cases hread : Json.read? text with
  | some w =>
    obtain ⟨u, hspelled, hshallow, rfl⟩ := Json.read?_eq_some.1 hread
    constructor
    · rintro rfl
      exact .json hspelled hshallow
    · intro h
      cases h with
      | json spelled shallow =>
        rw [Json.read?_eq_some.2 ⟨_, spelled, shallow, rfl⟩] at hread
        exact (Option.some.inj hread).symm
      | text unread => exact absurd hshallow (Nat.not_le.2 (unread u hspelled))
  | none =>
    have hunread (w : Json) (hspelled : Json.TextOf w text.toList) : 127 < w.depth := by
      refine Nat.lt_of_not_le fun hshallow => ?_
      rw [Json.read?_eq_some.2 ⟨w, hspelled, hshallow, rfl⟩] at hread
      cases hread
    constructor
    · rintro rfl
      exact .text hunread
    · intro h
      cases h with
      | json spelled shallow => exact absurd shallow (Nat.not_le.2 (hunread _ spelled))
      | text => rfl

-- The nearest number is one further in its last place.
example : value "956.0342718892493" = .number (.float ⟨0x408DE04630571BFB⟩) := by
  decide +kernel

example : value "1.7976931348623158e308" = .string "1.7976931348623158e308" := by
  decide +kernel

theorem mark_not_mem_of_blank {s : String} (h : Text.blank s = true) : '=' ∉ s.toList := by
  intro hmem
  have hblank := List.all_eq_true.1 h '=' hmem
  cases hblank

theorem cut_eq_some {argument before text : String} :
    Text.cut? '=' argument = some (before, text) ↔
      argument = before ++ "=" ++ text ∧ '=' ∉ before.toList := by
  rw [Text.cut?_eq_some, ← String.toList_inj]
  simp [String.toList_append]

theorem trim_eq_iff {s body : String} :
    Text.trim s = body ↔ Text.Trimmed Text.isBlank body.toList ∧
      ∃ left right, s = left ++ body ++ right ∧ Text.blank left = true ∧ Text.blank right = true := by
  simp only [Text.blank, List.all_eq_true]
  exact Text.ofList_dropEnds_eq_iff

theorem trim_eq_empty {s : String} : Text.trim s = "" ↔ Text.blank s = true := by
  rw [trim_eq_iff]
  constructor
  · rintro ⟨-, left, right, rfl, hleft, hright⟩
    simp_all [Text.blank, String.toList_append]
  · intro h
    exact ⟨⟨nofun, nofun⟩, s, "", by simp, h, rfl⟩

theorem parse_eq_ok {argument key : String} {v : Json} :
    parse argument = .ok (key, v) ↔
      Key key ∧ ∃ text, Gives argument key text ∧ Means text v := by
  constructor
  · intro h
    rw [parse] at h
    split at h
    · cases h
    next before text hcut =>
    split at h
    · cases h
    next hne =>
    cases h
    obtain ⟨rfl, hunmarked⟩ := cut_eq_some.1 hcut
    obtain ⟨htrimmed, left, right, hbefore, hleft, hright⟩ :=
      trim_eq_iff.1 (@rfl _ (Text.trim before))
    refine ⟨⟨hne, fun hmem => hunmarked ?_, htrimmed⟩, text, ?_, value_eq_iff.1 rfl⟩
    · rw [hbefore]
      simp [String.toList_append, hmem]
    · exact ⟨left, right, by rw [← hbefore], hleft, hright⟩
  · rintro ⟨⟨hne, hunmarked, htrimmed⟩, text, ⟨left, right, rfl, hleft, hright⟩, hmeans⟩
    have hcut : Text.cut? '=' (left ++ key ++ right ++ "=" ++ text) =
        some (left ++ key ++ right, text) := by
      refine cut_eq_some.2 ⟨rfl, ?_⟩
      simp [String.toList_append, hunmarked, mark_not_mem_of_blank hleft,
        mark_not_mem_of_blank hright]
    have htrim : Text.trim (left ++ key ++ right) = key :=
      trim_eq_iff.2 ⟨htrimmed, left, right, rfl, hleft, hright⟩
    rw [parse, hcut]
    simp only [htrim, if_neg hne, value_eq_iff.2 hmeans]

theorem exists_refused {argument : String} :
    (∃ f, Refused argument f) ↔ '=' ∉ argument.toList ∨
      ∃ left text, argument = left ++ "=" ++ text ∧ Text.blank left = true := by
  constructor
  · rintro ⟨f, h⟩
    cases h with
    | noValue unmarked => exact .inl unmarked
    | noKey left text form blank => exact .inr ⟨left, text, form, blank⟩
  · rintro (unmarked | ⟨left, text, form, blank⟩)
    · exact ⟨_, .noValue unmarked⟩
    · exact ⟨_, .noKey left text form blank⟩

theorem parse_eq_error {argument : String} {f : Fault} :
    parse argument = .error f ↔ Refused argument f := by
  constructor
  · intro h
    rw [parse] at h
    split at h
    · next hcut =>
      cases h
      exact .noValue (Text.cut?_eq_none.1 hcut)
    next before text hcut =>
    split at h
    · next hempty =>
      cases h
      exact .noKey before text (cut_eq_some.1 hcut).1 (trim_eq_empty.1 hempty)
    · cases h
  · intro h
    rw [parse]
    cases h with
    | noValue unmarked => rw [Text.cut?_eq_none.2 unmarked]
    | noKey left text form blank =>
      rw [cut_eq_some.2 ⟨form, mark_not_mem_of_blank blank⟩]
      simp only [if_pos (trim_eq_empty.2 blank)]

theorem means_compact {v : Json} (h : Expressible v) : Means v.compact v := by
  have hnumbers : ∀ n ∈ v.numbers, n.ReadsBack := by
    intro n hn
    cases n with
    | int n => exact Json.Number.int_readsBack (h.sound.inRange _ hn)
    | float x => exact h.floats x hn
  have hspelled : Json.TextOf v v.compact.toList := by
    rw [Json.compact, String.toList_ofList]
    exact (Json.written_compact v hnumbers).textOf
  have hmeans := Means.json hspelled h.shallow
  rwa [Json.canonical_of_ordered v h.sound.ordered] at hmeans

/-! ## All arguments -/

theorem settings_eq_ok {arguments : List String} {m : Settings} :
    settings arguments = .ok m ↔
      ∃ es, arguments.map parse = es.map .ok ∧ Dict.ofList es = m := by
  rw [settings, Except.map_eq_ok]
  simp only [Except.mapM_eq_ok]

theorem settings_eq_error {arguments : List String} :
    (∃ f, settings arguments = .error f) ↔ ∃ a ∈ arguments, ∃ f, Refused a f := by
  constructor
  · rintro ⟨f, h⟩
    obtain ⟨a, ha, hparse⟩ := Except.exists_of_mapM_error (Except.map_eq_error.1 h)
    exact ⟨a, ha, f, parse_eq_error.1 hparse⟩
  · rintro ⟨a, ha, f, hrefused⟩
    cases hs : settings arguments with
    | error f => exact ⟨f, rfl⟩
    | ok m =>
      obtain ⟨es, hes, -⟩ := settings_eq_ok.1 hs
      have hmem := List.mem_map_of_mem (f := parse) ha
      rw [hes, parse_eq_error.2 hrefused] at hmem
      obtain ⟨e, -, he⟩ := List.mem_map.1 hmem
      cases he

/-- The entry of a key comes from the last argument for it. -/
theorem get?_of_map_parse {arguments : List String} {es : List (String × Json)}
    (h : arguments.map parse = es.map .ok) {k : String} {v : Json} :
    (Dict.ofList es).get? k = some v ↔ ∃ earlier a later, arguments = earlier ++ a :: later ∧
      parse a = .ok (k, v) ∧ ∀ b ∈ later, ∀ w, parse b ≠ .ok (k, w) := by
  rw [Dict.get?_ofList_eq_some]
  constructor
  · rintro ⟨before, behind, rfl, hbehind⟩
    rw [List.map_append, List.map_cons] at h
    obtain ⟨earlier, tail, rfl, -, htail⟩ := List.map_eq_append_iff.1 h
    obtain ⟨a, later, rfl, ha, hlater⟩ := List.map_eq_cons_iff.1 htail
    refine ⟨earlier, a, later, rfl, ha, fun b hb w hparse => ?_⟩
    have hmem := List.mem_map_of_mem (f := parse) hb
    rw [hlater, hparse] at hmem
    obtain ⟨e, he, heq⟩ := List.mem_map.1 hmem
    cases heq
    exact hbehind _ he rfl
  · rintro ⟨earlier, a, later, rfl, ha, hlater⟩
    rw [List.map_append, List.map_cons, ha] at h
    obtain ⟨before, tail, rfl, -, htail⟩ := List.map_eq_append_iff.1 h.symm
    obtain ⟨e, behind, rfl, he, hbehind⟩ := List.map_eq_cons_iff.1 htail
    cases he
    refine ⟨before, behind, rfl, fun e he hk => ?_⟩
    have hmem := List.mem_map_of_mem (f := fun e => (.ok e : Except Fault (String × Json))) he
    rw [hbehind] at hmem
    obtain ⟨b, hb, hparse⟩ := List.mem_map.1 hmem
    subst hk
    exact hlater b hb e.2 hparse

/-- Arguments that give the entries of a map with the texts of their values. -/
theorem map_parse_of_compact {arguments : List String} {es : List (String × Json)}
    (hes : ∀ e ∈ es, Key e.1 ∧ Expressible e.2)
    (h : List.Forall₂ (fun a e => Gives a e.1 e.2.compact) arguments es) :
    arguments.map parse = es.map .ok := by
  induction h with
  | nil => rfl
  | cons ha _ ih =>
    obtain ⟨⟨hkey, hvalue⟩, hes⟩ := List.forall_mem_cons.1 hes
    rw [List.map_cons, List.map_cons, ih hes, parse_eq_ok.2 ⟨hkey, _, ha, means_compact hvalue⟩]

/-- Every map whose keys and values can be given is given by an argument for each entry, in any order
and with any white space around the keys. Of any arguments, one without a key is refused, and without
such an argument every key has the value that its last argument gives. -/
theorem settings_express :
    (∀ (m : Settings) (es : List (String × Json)) (arguments : List String),
      (∀ e ∈ m.toList, Key e.1 ∧ Expressible e.2) → es.Perm m.toList →
      List.Forall₂ (fun a e => Gives a e.1 e.2.compact) arguments es →
      settings arguments = .ok m) ∧
    ∀ arguments : List String,
      ((∃ f, settings arguments = .error f) ↔
        ∃ a ∈ arguments, '=' ∉ a.toList ∨ ∃ left text, a = left ++ "=" ++ text ∧ Text.blank left) ∧
      ∀ m, settings arguments = .ok m → ∀ k v, m.get? k = some v ↔
        Key k ∧ ∃ earlier a later text, arguments = earlier ++ a :: later ∧ Gives a k text ∧
          (∀ b ∈ later, ∀ text', ¬ Gives b k text') ∧ Means text v := by
  refine ⟨fun m es arguments hm hperm hes => ?_, fun arguments => ⟨?_, fun m hm k v => ?_⟩⟩
  · have hparse := map_parse_of_compact (fun e he => hm e (hperm.mem_iff.1 he)) hes
    refine settings_eq_ok.2 ⟨es, hparse, ?_⟩
    rw [← Dict.ofList_perm m.sorted.distinct hperm.symm, Dict.ofList_toList]
  · rw [settings_eq_error]
    exact exists_congr fun a => and_congr_right fun _ => exists_refused
  · obtain ⟨es, hes, rfl⟩ := settings_eq_ok.1 hm
    rw [get?_of_map_parse hes]
    constructor
    · rintro ⟨earlier, a, later, harguments, ha, hlater⟩
      obtain ⟨hkey, text, hgives, hmeans⟩ := parse_eq_ok.1 ha
      refine ⟨hkey, earlier, a, later, text, harguments, hgives, fun b hb text' hgives' => ?_, hmeans⟩
      exact hlater b hb _ (parse_eq_ok.2 ⟨hkey, text', hgives', value_eq_iff.1 rfl⟩)
    · rintro ⟨hkey, earlier, a, later, text, harguments, hgives, hlater, hmeans⟩
      refine ⟨earlier, a, later, harguments, parse_eq_ok.2 ⟨hkey, text, hgives, hmeans⟩, ?_⟩
      intro b hb w hparse
      obtain ⟨-, text', hgives', -⟩ := parse_eq_ok.1 hparse
      exact hlater b hb text' hgives'

/-! ## A sample of settings -/

/-- A number with a fraction, and an object whose text has the mark in it. -/
def sample : Settings :=
  (Dict.empty.insert "size" (.number (.float ⟨0x3FF8000000000000⟩))).insert "tags"
    (.object [("a", .array [.string "x=y", .null])])

/-- The entries of the sample, the last one first. -/
def sampleEntries : List (String × Json) :=
  [("tags", .object [("a", .array [.string "x=y", .null])]),
    ("size", .number (.float ⟨0x3FF8000000000000⟩))]

/-- Arguments for the sample, with white space around the keys. -/
def sampleArguments : List String :=
  ["\u3000tags\t=\x7b\"a\":[\"x=y\",null]\x7d", " size=1.5"]

theorem expressible_sample : ∀ e ∈ sample.toList, Key e.1 ∧ Expressible e.2 := by
  have hentries : sample.toList = sampleEntries.reverse := by decide
  have hsize : Expressible (.number (.float ⟨0x3FF8000000000000⟩)) := by
    refine ⟨⟨trivial, fun n hn => ?_⟩, by decide, fun x hx => ?_⟩
    · cases List.mem_singleton.1 hn
      trivial
    · cases List.mem_singleton.1 hx
      decide +kernel
  have htags : Expressible (.object [("a", .array [.string "x=y", .null])]) := by
    refine ⟨⟨?_, nofun⟩, by decide, nofun⟩
    simp [Json.Ordered, Json.OrderedMembers, Json.OrderedItems, Entries.Sorted]
  rw [hentries]
  refine List.forall_mem_cons.2 ⟨⟨⟨by decide, by decide, by decide⟩, hsize⟩, ?_⟩
  exact List.forall_mem_singleton.2 ⟨⟨by decide, by decide, by decide⟩, htags⟩

theorem gives_sample :
    List.Forall₂ (fun a e => Gives a e.1 e.2.compact) sampleArguments sampleEntries := by
  refine .cons ⟨"\u3000", "\t", ?_, by decide, by decide⟩
    (.cons ⟨" ", "", ?_, by decide, by decide⟩ .nil)
  · decide +kernel
  · decide +kernel

/-- The sample is read from its arguments, and an argument without a key is refused beside them. -/
theorem settings_express_sample :
    settings sampleArguments = .ok sample ∧
      (∃ f, settings (sampleArguments ++ ["\u2003=1"]) = .error f) ∧
      ∃ earlier a later text, sampleArguments = earlier ++ a :: later ∧ Gives a "size" text ∧
        Means text (.number (.float ⟨0x3FF8000000000000⟩)) := by
  have hsample : settings sampleArguments = .ok sample :=
    settings_express.1 sample sampleEntries sampleArguments expressible_sample
      (by decide) gives_sample
  have hsize : sample.get? "size" = some (.number (.float ⟨0x3FF8000000000000⟩)) := by decide
  refine ⟨hsample, ?_, ?_⟩
  · have hblank : Text.blank "\u2003" = true := by decide
    exact (settings_express.2 _).1.2
      ⟨"\u2003=1", by decide, .inr ⟨"\u2003", "1", by decide, hblank⟩⟩
  · obtain ⟨-, earlier, a, later, text, hsplit, hgives, -, hmeans⟩ :=
      ((settings_express.2 sampleArguments).2 sample hsample "size" _).1 hsize
    exact ⟨earlier, a, later, text, hsplit, hgives, hmeans⟩

end ClusterLedger.SetArgument
