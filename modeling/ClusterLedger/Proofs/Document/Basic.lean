import ClusterLedger.Document.Request
import ClusterLedger.Proofs.Dict
import ClusterLedger.Proofs.Except
import ClusterLedger.Proofs.Module.Name

/-!
# What changes do to a document

Every change puts modules or takes modules out. Here is what they do to the module of a name, and
what is known about the fields of the records they put.
-/
namespace ClusterLedger

theorem Json.fields?_ofFields (fields : Dict Json) : (ofFields fields).fields? = some fields := by
  rw [ofFields, fields?, Dict.ofList_toList]

namespace Document

variable {d d' : Document} {name module : String} {r : Record}

/-! ## Putting and removing -/

theorem module?_put (d : Document) (name : String) (r : Record) (k : String) :
    (d.put name r).module? k = if name = k then some r else d.module? k :=
  Dict.get?_insert d.modules name r k

theorem module?_remove (d : Document) (name k : String) :
    (d.remove name).module? k = if ModuleName.ofPath name = k then none else d.module? k :=
  Dict.get?_erase d.modules _ k

theorem module?_removeAll (d : Document) (names : List String) (k : String) :
    (d.removeAll names).module? k =
      if k ∈ names.map ModuleName.ofPath then none else d.module? k := by
  induction names generalizing d with
  | nil => simp [removeAll]
  | cons name rest ih =>
    have h := ih (d.remove name)
    rw [module?_remove] at h
    rw [removeAll, List.foldl_cons]
    rw [removeAll] at h
    rw [h]
    by_cases hk : ModuleName.ofPath name = k
    · simp [hk]
    · simp [hk, Ne.symm hk]

/-- Names of some kind are removed as they are. -/
theorem module?_removeAll_of_kind {names : List String}
    (h : ∀ name ∈ names, (ModuleName.kind? name).isSome) (k : String) :
    (d.removeAll names).module? k = if k ∈ names then none else d.module? k := by
  have hself : names.map ModuleName.ofPath = names.map id :=
    List.map_congr_left fun name hname => ModuleName.ofPath_of_kind (h name hname)
  rw [module?_removeAll, hself, List.map_id]

theorem contains_iff : d.contains name = true ↔ ∃ r, d.module? name = some r :=
  Dict.contains_eq_true

theorem contains_put (d : Document) (name : String) (r : Record) (k : String) :
    (d.put name r).contains k = true ↔ name = k ∨ d.contains k = true := by
  simp only [contains_iff, module?_put]
  by_cases hk : name = k
  · simp [hk]
  · simp [hk]

theorem mem_moduleNames : name ∈ d.moduleNames ↔ ∃ r, d.module? name = some r :=
  Dict.mem_keys

/-! ## Paths -/

theorem segments_module (name : String) :
    Text.segments '.' ("module." ++ name) = moduleKey :: Text.segments '.' name := by
  have hpath : "module." ++ name = moduleKey ++ "." ++ name := by simp [moduleKey]
  have hkey : '.' ∉ moduleKey.toList := by decide
  rw [hpath, Text.segments_append_dot, Text.segments_of_not_mem hkey, List.singleton_append]

/-- Where the name has no dot, a path leads to the module. -/
theorem get?_module (h : '.' ∉ name.toList) :
    d.get? ("module." ++ name) = (d.module? name).map Json.ofFields := by
  rw [get?, segments_module, Text.segments_of_not_mem h, find?, if_pos rfl]
  cases d.module? name <;> rfl

/-! ## Adding records -/

/-- A record is added under a plain name, which may be given as a path. -/
theorem add_eq_ok {record : Json} : d.add name record = .ok d' ↔
    ModuleName.IsPlain (ModuleName.ofPath name) ∧
      ∃ r, record.fields? = some r ∧ d' = d.put (ModuleName.ofPath name) r := by
  rw [add, ModuleName.IsPlain, ← not_or]
  split
  · next hname => simp [hname]
  · next hname =>
    cases record.fields? with
    | none => simp
    | some r =>
      simp only [hname, not_false_eq_true, true_and, Except.ok.injEq, Option.some.injEq,
        exists_eq_left']
      exact eq_comm

theorem addRecord_eq_ok {record : Json} : d.addRecord name record = .ok d' ↔
    ModuleName.IsPlain (ModuleName.ofPath name) ∧
      ∃ r, record.fields? = some r ∧ d' = d.put (ModuleName.ofPath name) r := by
  rw [addRecord]
  split
  · exact add_eq_ok
  · next hnone => simp [hnone]

theorem addRecord_ofFields (d : Document) (hname : ModuleName.IsPlain name) (r : Record) :
    d.addRecord name (.ofFields r) = .ok (d.put name r) := by
  have hself := ModuleName.ofPath_of_dotless hname.2
  rw [addRecord_eq_ok, hself]
  exact ⟨hname, r, Json.fields?_ofFields r, rfl⟩

/-- A record added under the name of a kind stands under that name. -/
theorem addRecord_of_kind (hk : (ModuleName.kind? name).isSome)
    (h : d.addRecord name (.ofFields r) = .ok d') : d' = d.put name r := by
  obtain ⟨-, _, hfields, rfl⟩ := addRecord_eq_ok.1 h
  cases (Json.fields?_ofFields r).symm.trans hfields
  rw [ModuleName.ofPath_of_kind hk]

/-! ## Clusters and nodes -/

theorem mem_clusters :
    name ∈ d.clusters ↔ (∃ r, d.module? name = some r) ∧ ModuleName.isCluster name = true := by
  rw [clusters, List.mem_filter, mem_moduleNames]

theorem mem_nodes : name ∈ d.nodes module ↔ ∃ r, d.module? name = some r ∧
    ModuleName.isNode name = true ∧
    r.text? Reference.environment = some (Reference.cluster module) := by
  simp only [nodes, Dict.mem_keys, Dict.get?_filter_eq_some, joins, decide_eq_true_eq]
  rfl

theorem kind_of_mem_nodes (h : name ∈ d.nodes module) : (ModuleName.kind? name).isSome := by
  obtain ⟨r, -, hnode, -⟩ := mem_nodes.1 h
  obtain ⟨p, hp⟩ := ModuleName.isNode_iff.1 hnode
  simp [hp]

theorem nodes_sorted (d : Document) (module : String) : (d.nodes module).Pairwise (· < ·) :=
  Dict.keys_sorted _

theorem nodes_nodup (d : Document) (module : String) : (d.nodes module).Nodup := by
  refine (d.nodes_sorted module).imp ?_
  intro a b hlt he
  exact String.lt_irrefl b (he ▸ hlt)

theorem answersTo_iff : d.answersTo name module = true ↔
    module = name ∨ ∃ r, d.module? module = some r ∧ r.text? "name" = some name := by
  rw [answersTo, decide_eq_true_eq, Option.bind_eq_some_iff]

end Document

/-! ## The fields of a record -/

namespace Record

variable {fields : List (String × String)} {settings : Settings} {field s : String}

/-- A setting wins over a text field of its name. -/
theorem get?_ofTexts (fields : List (String × String)) (settings : Settings) (field : String) :
    (ofTexts fields settings).get? field =
      (settings.get? field).or ((Entries.get? field fields.reverse).map Json.string) := by
  have hsettings : Entries.get? field settings.toList.reverse = settings.get? field :=
    (settings.sorted.distinct.get?_perm (List.reverse_perm _).symm field).symm
  rw [ofTexts, Dict.get?_insertAll, hsettings, Dict.get?_ofList, ← List.map_reverse,
    Entries.get?_mapValues fun _ => Json.string]

/-- A text field that no setting overrides keeps its text. -/
theorem text?_ofTexts (hs : settings.get? field = none)
    (hf : Entries.get? field fields.reverse = some s) :
    (ofTexts fields settings).text? field = some s := by
  rw [text?, get?_ofTexts, hs, hf]
  rfl

end Record

namespace Settings

variable {settings : Settings} {fields : List String}

theorem get?_of_check (h : settings.check fields = .ok ()) {field : String}
    (hf : field ∈ fields) : settings.get? field = none := by
  rw [check] at h
  split at h
  · cases h
  · next hnone =>
    have hc := List.find?_eq_none.1 hnone field hf
    exact Dict.contains_eq_false.1 (by simpa using hc)

end Settings

namespace ClusterView

theorem text?_name {v : ClusterView} (h : v.settings.check fields = .ok ()) :
    v.toRecord.text? "name" = some v.name :=
  Record.text?_ofTexts (Settings.get?_of_check h (by decide)) rfl

end ClusterView

namespace NodeView

theorem text?_hostname {v : NodeView} (h : v.settings.check fields = .ok ()) :
    v.toRecord.text? "hostname" = some v.hostname :=
  Record.text?_ofTexts (Settings.get?_of_check h (by decide)) rfl

theorem text?_environment {v : NodeView} (h : v.settings.check fields = .ok ()) :
    v.toRecord.text? Reference.environment = some v.environment :=
  Record.text?_ofTexts (Settings.get?_of_check h (by decide)) rfl

end NodeView

end ClusterLedger
