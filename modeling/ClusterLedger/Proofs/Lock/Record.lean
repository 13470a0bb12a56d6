import ClusterLedger.Lock.Record
import ClusterLedger.Proofs.Json.RoundTrip
import ClusterLedger.Proofs.Lock.Instant
import ClusterLedger.Proofs.Text.Utf8

/-!
# Lock records as bytes

A record that is read from the bytes of a record has its token. Only the time might not be read back,
since the calendar of the reader ends.
-/
namespace ClusterLedger.Lock

theorem tokensOfBytes?_toBytes (l : Lock) :
    Json.tokensOfBytes? l.toBytes = some l.toJson.tokens := by
  have hspaces : ∀ c ∈ [' ', ' '], Json.isSpace c = true :=
    List.all_eq_true.1 (by decide)
  have hnumbers : ∀ n ∈ l.toJson.numbers, n.ReadsBack := by
    intro n hn
    have hpid : n = .int l.pid.toNat := List.mem_singleton.1 hn
    rw [hpid]
    have := l.pid.toNat_lt
    exact Json.Number.int_readsBack ⟨by omega, by omega⟩
  have hscan := @Json.tokens?_pretty [' ', ' '] hspaces l.toJson hnumbers [] nofun
  rw [List.append_nil] at hscan
  have htext : (l.toJson.pretty "  ").toList = l.toJson.prettyChars [' ', ' '] 0 := by
    rw [Json.pretty, String.toList_ofList]
    rfl
  rw [Json.tokensOfBytes?, toBytes, Text.letters_toUTF8, htext]
  exact hscan

/-- The members of a record, each with the one token of its value. -/
def members (l : Lock) : List Json.Member :=
  [("holder", [.string (some l.holder)]), ("pid", [.number (some (.int l.pid.toNat))]),
    ("token", [.string (some l.token)]), ("acquired_at", [.string (some l.acquiredAt.stamp)])]

theorem members?_toJson (l : Lock) : Json.members? l.toJson.tokens = some l.members :=
  rfl

/-- Where no key is repeated, every member is the only one of its key. -/
theorem onlyMember?_of_mem {members : List Json.Member} {key : String} {v : Json}
    (hkeys : (members.map Prod.fst).Nodup) (hdepth : v.depth ≤ Json.maxDepth)
    (hm : (key, v.tokens) ∈ members) : Json.onlyMember? members key = some v := by
  have hfilter : (members.filter fun m => m.1 = key) = [(key, v.tokens)] := by
    induction members with
    | nil => cases hm
    | cons m rest ih =>
      obtain ⟨hfresh, hrest⟩ := List.nodup_cons.1 hkeys
      rcases List.mem_cons.1 hm with rfl | hm
      · rw [List.filter_cons_of_pos (by simp), List.filter_eq_nil_iff.2]
        intro m' hm' hkey
        exact hfresh (List.mem_map.2 ⟨m', hm', of_decide_eq_true hkey⟩)
      · have hne : m.1 ≠ key := fun he => hfresh (List.mem_map.2 ⟨_, hm, he.symm⟩)
        rw [List.filter_cons_of_neg (by simpa using hne), ih hrest hm]
  rw [Json.onlyMember?, hfilter]
  exact (Json.ofTokens?_tokens _ v).trans (if_pos hdepth)

theorem pid?_toNat (pid : UInt32) : pid? (.number (.int pid.toNat)) = some pid := by
  have := pid.toNat_lt
  rw [pid?, if_pos ⟨by omega, by omega⟩]
  simp

/-- A record is read back as it was written, with the time that its stamp is read as. -/
theorem ofBytes?_toBytes (l : Lock) : ofBytes? l.toBytes =
    (Instant.read? l.acquiredAt.stamp).map fun time => ⟨l.holder, l.pid, l.token, time⟩ := by
  have hkeys : (l.members.map Prod.fst).Nodup :=
    show ["holder", "pid", "token", "acquired_at"].Nodup by decide
  have hholder : Json.onlyMember? l.members "holder" = some (.string l.holder) :=
    onlyMember?_of_mem hkeys (Nat.zero_le _) (.head _)
  have hpid : Json.onlyMember? l.members "pid" = some (.number (.int l.pid.toNat)) :=
    onlyMember?_of_mem hkeys (Nat.zero_le _) (.tail _ (.head _))
  have htoken : Json.onlyMember? l.members "token" = some (.string l.token) :=
    onlyMember?_of_mem hkeys (Nat.zero_le _) (.tail _ (.tail _ (.head _)))
  have htime : Json.onlyMember? l.members "acquired_at" = some (.string l.acquiredAt.stamp) :=
    onlyMember?_of_mem hkeys (Nat.zero_le _) (.tail _ (.tail _ (.tail _ (.head _))))
  rw [ofBytes?, tokensOfBytes?_toBytes, Option.bind_some, ofTokens?, members?_toJson]
  simp only [ofMembers?, hholder, hpid, htoken, htime, ofValues?, Json.text?, pid?_toNat,
    Option.bind_eq_bind, Option.bind_some]
  cases Instant.read? l.acquiredAt.stamp <;> rfl

theorem ofBytes?_toBytes_of_stamp {l : Lock}
    (h : Instant.read? l.acquiredAt.stamp = some l.acquiredAt) : ofBytes? l.toBytes = some l := by
  rw [ofBytes?_toBytes, h]
  rfl

theorem ofBytes?_toBytes_of_shows {l : Lock} (h : l.acquiredAt.Shows) :
    ofBytes? l.toBytes = some l := by
  refine ofBytes?_toBytes_of_stamp ?_
  rw [Instant.read?, Instant.read_stamp h]
  rfl

theorem toBytes_inj {l l' : Lock} (hl : l.acquiredAt.Plain) (hl' : l'.acquiredAt.Plain) :
    l.toBytes = l'.toBytes ↔ l = l' := by
  refine ⟨fun h => ?_, congrArg Lock.toBytes⟩
  have hread := ofBytes?_toBytes_of_shows hl.shows
  rw [h, ofBytes?_toBytes_of_shows hl'.shows] at hread
  exact (Option.some.inj hread).symm

/-- The token of the record in a place, if there are bytes and they hold one. -/
def tokenIn? (bytes : Option ByteArray) : Option String :=
  (bytes.bind ofBytes?).map token

theorem tokenIn?_toBytes (l : Lock) :
    tokenIn? (some l.toBytes) = none ∨ tokenIn? (some l.toBytes) = some l.token := by
  rw [tokenIn?, Option.bind_some, ofBytes?_toBytes]
  cases Instant.read? l.acquiredAt.stamp with
  | none => exact .inl rfl
  | some time => exact .inr rfl

end ClusterLedger.Lock
