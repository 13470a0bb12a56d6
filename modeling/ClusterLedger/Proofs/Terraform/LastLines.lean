import ClusterLedger.Proofs.Terraform.Provision
import ClusterLedger.Proofs.Text.Affix
import ClusterLedger.Proofs.Text.Lossy
import Mathlib.Data.List.DropRight

/-!
# The last lines of a stream

A listener ends with the last lines of its stream in which there is something to see, and it leaves
nothing of the stream unread. What carries the proof is what it knows in between: the finished lines
of the bytes that were read, and the bytes of the unfinished one.
-/
namespace ClusterLedger.Terraform

/-! ## Lines and their texts -/

/-- A line with the newline that ends it. -/
def IsFinished (line : List UInt8) : Prop :=
  ∃ body, newline ∉ body ∧ line = body ++ [newline]

/-- The lines of a stream, which is cut behind each newline; the last line can be without one. -/
inductive Lines : List UInt8 → List (List UInt8) → Prop
  | finished {lines : List (List UInt8)} (hlines : ∀ line ∈ lines, IsFinished line) :
    Lines lines.flatten lines
  | unfinished {lines : List (List UInt8)} {last : List UInt8}
    (hlines : ∀ line ∈ lines, IsFinished line) (hne : last ≠ []) (hlast : newline ∉ last) :
    Lines (lines.flatten ++ last) (lines ++ [last])

/-- The text of a line: what its bytes read, less the line feeds and carriage returns at the end. -/
structure Shows (line : List UInt8) (text : String) : Prop where
  decoded : ∃ ending : String, Text.Reads line (text ++ ending) ∧
    ∀ c ∈ ending.toList, c = '\n' ∨ c = '\r'
  last : ∀ c ∈ text.toList.getLast?, c ≠ '\n' ∧ c ≠ '\r'

/-- There is something to see in a text. -/
def Visible (text : String) : Prop :=
  ∃ c ∈ text.toList, Text.isBlank c = false

instance : DecidablePred Visible :=
  fun text => inferInstanceAs (Decidable (∃ c ∈ text.toList, Text.isBlank c = false))

/-- The last `n` lines of a stream in which there is something to see. -/
def LastLines (n : Nat) (stream : List UInt8) (kept : List String) : Prop :=
  ∃ lines texts, Lines stream lines ∧ List.Forall₂ Shows lines texts ∧
    kept = (texts.filter Visible).rtake n

variable {stream line : List UInt8} {lines : List (List UInt8)} {text : String}

theorem IsFinished.eq_snoc (h : IsFinished line) : line = line.dropLast ++ [newline] := by
  obtain ⟨body, -, rfl⟩ := h
  rw [List.dropLast_concat]

theorem splitOn_of_finished {rest : List UInt8} (hlines : ∀ line ∈ lines, IsFinished line)
    (hrest : newline ∉ rest) :
    (lines.flatten ++ rest).splitOn newline = lines.map List.dropLast ++ [rest] := by
  induction lines with
  | nil => exact List.splitOn_eq_singleton hrest
  | cons line lines ih =>
    obtain ⟨body, hbody, rfl⟩ := hlines line List.mem_cons_self
    have hlines := ih fun line hline => hlines line (List.mem_cons_of_mem _ hline)
    rw [List.flatten_cons, List.append_assoc, List.append_assoc, List.singleton_append,
      List.splitOn_append_cons_self, List.splitOn_eq_singleton hbody, hlines, List.map_cons,
      List.dropLast_concat]
    rfl

theorem finished_append_inj {others : List (List UInt8)} {rest rest' : List UInt8}
    (hlines : ∀ line ∈ lines, IsFinished line) (hothers : ∀ line ∈ others, IsFinished line)
    (hrest : newline ∉ rest) (hrest' : newline ∉ rest')
    (h : lines.flatten ++ rest = others.flatten ++ rest') : lines = others ∧ rest = rest' := by
  have hsplit := congrArg (List.splitOn newline) h
  rw [splitOn_of_finished hlines hrest, splitOn_of_finished hothers hrest', ← List.concat_eq_append,
    ← List.concat_eq_append, List.concat_inj] at hsplit
  obtain ⟨hbodies, hrests⟩ := hsplit
  have hself {ls : List (List UInt8)} (hls : ∀ line ∈ ls, IsFinished line) :
      (ls.map List.dropLast).map (· ++ [newline]) = ls := by
    rw [List.map_map]
    exact (List.map_congr_left fun line hline => (hls line hline).eq_snoc.symm).trans
      (List.map_id ls)
  refine ⟨?_, hrests⟩
  rw [← hself hlines, hbodies, hself hothers]

theorem Lines.parts (h : Lines stream lines) :
    ∃ finished rest, (∀ line ∈ finished, IsFinished line) ∧ newline ∉ rest ∧
      stream = finished.flatten ++ rest ∧ lines = finished ++ if rest = [] then [] else [rest] := by
  cases h with
  | finished hlines =>
    exact ⟨lines, [], hlines, List.not_mem_nil, (List.append_nil _).symm, (List.append_nil _).symm⟩
  | unfinished hlines hne hlast => exact ⟨_, _, hlines, hlast, rfl, by rw [if_neg hne]⟩

theorem Lines.unique {others : List (List UInt8)} (h : Lines stream lines)
    (hothers : Lines stream others) : lines = others := by
  obtain ⟨finished, rest, hfinished, hrest, hstream, rfl⟩ := h.parts
  obtain ⟨finished', rest', hfinished', hrest', hstream', rfl⟩ := hothers.parts
  obtain ⟨rfl, rfl⟩ :=
    finished_append_inj hfinished hfinished' hrest hrest' (hstream.symm.trans hstream')
  rfl

/-! ## Decoding a line -/

theorem shows_iff : Shows line text ↔ decodeLine line = text := by
  have hend (c : Char) : decide (c = '\n' ∨ c = '\r') = false ↔ c ≠ '\n' ∧ c ≠ '\r' := by
    rw [decide_eq_false_iff_not, not_or]
  rw [decodeLine, chomp, ← String.toList_inj, String.toList_ofList, Text.dropEnd_eq_iff]
  constructor
  · rintro ⟨⟨ending, hreads, hending⟩, hlast⟩
    refine ⟨fun c hc => (hend c).2 (hlast c hc), ending.toList, ?_,
      fun c hc => decide_eq_true (hending c hc)⟩
    rw [Text.lossy_eq_iff.2 hreads, String.toList_append]
  · rintro ⟨hlast, ending, happend, hending⟩
    refine ⟨⟨String.ofList ending, Text.lossy_eq_iff.1 ?_, fun c hc => ?_⟩,
      fun c hc => (hend c).1 (hlast c hc)⟩
    · rw [← String.toList_inj, happend, String.toList_append, String.toList_ofList]
    · rw [String.toList_ofList] at hc
      exact of_decide_eq_true (hending c hc)

theorem forall₂_shows {texts : List String} :
    List.Forall₂ Shows lines texts ↔ lines.map decodeLine = texts := by
  have hshows : Shows = fun line text => decodeLine line = text := by
    funext line text
    exact propext shows_iff
  rw [hshows, ← List.forall₂_map_left_iff, List.forall₂_eq_eq_eq]

/-- The newline that ends a line is no part of its text. -/
theorem decodeLine_newline (line : List UInt8) :
    decodeLine (line ++ [newline]) = decodeLine line := by
  have htext : (Text.lossy (line ++ [newline])).toList = (Text.lossy line).toList ++ ['\n'] :=
    Text.toList_lossy_snoc rfl (by decide)
  rw [decodeLine, decodeLine, chomp, chomp, htext, Text.dropEnd, List.reverse_append, Text.dropEnd]
  rfl

/-- The lines of the stream are read as their texts, of which the last ones are kept. -/
theorem lastLines_iff {n : Nat} {kept : List String} (h : Lines stream lines) :
    LastLines n stream kept ↔ kept = ((lines.map decodeLine).filter Visible).rtake n := by
  constructor
  · rintro ⟨others, texts, hothers, htexts, hkept⟩
    obtain rfl := h.unique hothers
    rwa [forall₂_shows.1 htexts]
  · intro hkept
    exact ⟨lines, _, h, forall₂_shows.2 rfl, hkept⟩

theorem LastLines.unique {n : Nat} {kept others : List String} (h : LastLines n stream kept)
    (hothers : LastLines n stream others) : kept = others := by
  obtain ⟨lines, texts, hlines, htexts, hkept⟩ := h
  rw [hkept, ← forall₂_shows.1 htexts]
  exact ((lastLines_iff hlines).1 hothers).symm

/-! ## What is kept -/

/-- The kept lines are the last ones of the texts in which there is something to see. -/
def Tail.Keeps (t : Tail) (texts : List String) : Prop :=
  t.lines = (texts.filter Visible).rtake tailLength

theorem blank_iff : Text.blank text = true ↔ ¬Visible text := by
  simp [Text.blank, Visible]

theorem Tail.keeps_empty : Tail.empty.Keeps [] := by
  rw [Tail.Keeps, List.filter_nil, List.rtake_nil, Tail.empty]

/-- Nothing is not a line. -/
theorem Tail.push_nil (t : Tail) : t.push (decodeLine []) = t :=
  if_pos rfl

/-- What is left out of a queue for room is not among the last of a longer queue. -/
theorem rtake_append_rtake {α : Type} (xs ys : List α) (n : Nat) :
    (xs.rtake n ++ ys).rtake n = (xs ++ ys).rtake n := by
  rw [List.rtake_eq_reverse_take_reverse, List.rtake_eq_reverse_take_reverse,
    List.rtake_eq_reverse_take_reverse, List.reverse_append, List.reverse_append,
    List.reverse_reverse, List.take_append, List.take_append, List.take_take,
    Nat.min_eq_left (Nat.sub_le _ _)]

theorem Tail.lines_push {t : Tail} (h : Visible text) :
    (t.push text).lines = (t.lines ++ [text]).rtake tailLength := by
  have hbounded := t.bounded
  rw [Tail.push, if_neg fun hblank => blank_iff.1 hblank h, List.rtake, List.length_append,
    List.length_singleton]
  split
  next hfull =>
    rw [hfull, Nat.add_sub_cancel_left, List.drop_append_of_le_length (by rw [hfull]; decide)]
  next hfull =>
    rw [Nat.sub_eq_zero_of_le (by omega), List.drop_zero]

theorem Tail.Keeps.push {t : Tail} {texts : List String} (h : t.Keeps texts) (text : String) :
    (t.push text).Keeps (texts ++ [text]) := by
  rw [Tail.Keeps] at h
  rw [Tail.Keeps, List.filter_append]
  by_cases hvisible : Visible text
  · rw [List.filter_cons_of_pos (by simpa using hvisible), List.filter_nil,
      Tail.lines_push hvisible, h, rtake_append_rtake]
  · rw [List.filter_cons_of_neg (by simpa using hvisible), List.filter_nil, List.append_nil,
      Tail.push, if_pos (blank_iff.2 hvisible), h]

/-! ## Listening -/

namespace Listener

/-- What a listener has read: finished lines, whose texts it keeps, and an unfinished one. -/
structure Heard (stream : List UInt8) (lines : List (List UInt8)) (l : Listener) : Prop where
  whole : stream = lines.flatten ++ l.pending.reverse
  finished : ∀ line ∈ lines, IsFinished line
  pending : newline ∉ l.pending
  keeps : l.tail.Keeps (lines.map decodeLine)

theorem heard_start : Heard [] [] start where
  whole := rfl
  finished _ h := nomatch h
  pending := List.not_mem_nil
  keeps := Tail.keeps_empty

variable {l : Listener}

theorem tail_endLine (l : Listener) :
    l.endLine.tail = l.tail.push (decodeLine l.pending.reverse) := by
  rw [Listener.endLine]

theorem Heard.endLine (h : Heard stream lines l) :
    Heard (stream ++ [newline]) (lines ++ [l.pending.reverse ++ [newline]]) l.endLine where
  whole := by
    rw [h.whole, List.flatten_append, List.flatten_singleton, List.append_assoc]
    exact (List.append_nil _).symm
  finished line hline := by
    rcases List.mem_append.1 hline with hline | hline
    · exact h.finished line hline
    · rw [List.mem_singleton.1 hline]
      exact ⟨_, mt List.mem_reverse.1 h.pending, rfl⟩
  pending := List.not_mem_nil
  keeps := by
    rw [List.map_append, List.map_singleton, decodeLine_newline, tail_endLine]
    exact h.keeps.push _

theorem Heard.hear (h : Heard stream lines l) (b : UInt8) :
    ∃ lines, Heard (stream ++ [b]) lines (l.hear b) := by
  unfold Listener.hear
  split
  next hb =>
    subst hb
    exact ⟨_, h.endLine⟩
  next hb =>
    refine ⟨lines, ?_, h.finished, List.not_mem_cons_of_ne_of_not_mem (Ne.symm hb) h.pending,
      h.keeps⟩
    rw [h.whole, List.append_assoc, List.reverse_cons]

/-- Whatever was read, the listener knows its lines. -/
theorem exists_heard (stream : List UInt8) :
    ∃ lines, Heard stream lines (stream.foldl Listener.hear start) := by
  -- the last byte is heard last, whatever comes behind it
  induction stream using List.reverseRecOn with
  | nil => exact ⟨[], heard_start⟩
  | append_singleton stream b ih =>
    obtain ⟨lines, h⟩ := ih
    rw [List.foldl_append, List.foldl_cons, List.foldl_nil]
    exact h.hear b

/-- At the end of a stream the unfinished line counts as a line, unless nothing of it was read. -/
theorem Heard.lastLines (h : Heard stream lines l) :
    LastLines tailLength stream l.endLine.tail.lines := by
  by_cases hpending : l.pending = []
  · have hstream : Lines stream lines := by
      rw [h.whole, hpending, List.reverse_nil, List.append_nil]
      exact .finished h.finished
    rw [lastLines_iff hstream, tail_endLine, hpending, List.reverse_nil, Tail.push_nil]
    exact h.keeps
  · have hstream : Lines stream (lines ++ [l.pending.reverse]) := by
      rw [h.whole]
      exact .unfinished h.finished (mt List.reverse_eq_nil_iff.1 hpending)
        (mt List.mem_reverse.1 h.pending)
    rw [lastLines_iff hstream, List.map_append, List.map_singleton, tail_endLine]
    exact h.keeps.push _

/-- Listening to bytes and going on. -/
theorem listen_append (l : Listener) (stream : List UInt8) (more : List Reading) :
    l.listen (stream.map .byte ++ more) = (stream.foldl Listener.hear l).listen more := by
  induction stream generalizing l with
  | nil => rfl
  | cons b stream ih => exact ih (l.hear b)

theorem drain_bytes (stream : List UInt8) : drain (stream.map .byte) = [] := by
  induction stream with
  | nil => rfl
  | cons b stream ih => exact ih

/-- Of what stands before a fault only the finished lines count, but the stream behind it is read
to its end all the same. -/
theorem listen_interrupted (before behind : List UInt8) :
    ∃ (lines : List (List UInt8)) (cut : List UInt8) (kept : Tail),
      (∀ line ∈ lines, IsFinished line) ∧ newline ∉ cut ∧ before = lines.flatten ++ cut ∧
      LastLines 20 lines.flatten kept.lines ∧
      start.listen (before.map .byte ++ .fault :: behind.map .byte) = (kept, []) := by
  obtain ⟨lines, h⟩ := exists_heard before
  refine ⟨lines, _, (before.foldl Listener.hear start).tail, h.finished,
    mt List.mem_reverse.1 h.pending, h.whole, ?_, ?_⟩
  · exact (lastLines_iff (.finished h.finished)).2 h.keeps
  · rw [listen_append, listen, drain_bytes]

theorem listen_bytes (stream : List UInt8) :
    start.listen (stream.map .byte) = ((stream.foldl Listener.hear start).endLine.tail, []) := by
  rw [← List.append_nil (stream.map Reading.byte), listen_append, listen]

/-- A listener ends with the last lines of the stream, and with nothing of it unread. -/
theorem listen_eq_iff (stream : List UInt8) (kept : Tail) (unread : List Reading) :
    start.listen (stream.map .byte) = (kept, unread) ↔
      LastLines 20 stream kept.lines ∧ unread = [] := by
  obtain ⟨lines, h⟩ := exists_heard stream
  rw [listen_bytes, Prod.mk.injEq]
  constructor
  · rintro ⟨rfl, rfl⟩
    exact ⟨h.lastLines, rfl⟩
  · rintro ⟨hkept, rfl⟩
    exact ⟨Tail.ext (h.lastLines.unique hkept), rfl⟩

end Listener

/-! ## The end of the error stream -/

theorem lastLines_tail (bytes : ByteArray) : LastLines 20 bytes.data.toList (tail bytes) := by
  obtain ⟨lines, h⟩ := Listener.exists_heard bytes.data.toList
  rw [tail, Listener.listen_bytes]
  exact h.lastLines

example : tail ⟨#[111, 107, 10, 255, 254, 32, 98, 13, 10, 32, 10, 97]⟩ =
    ["ok", "\uFFFD\uFFFD b", "a"] := by
  cbv

/-- The fault of a run that does not end with status 0 shows the end of the error stream. -/
theorem run_failed {t : Terraform} {d : String} {arguments : List String} {finished : Finished}
    {x : Except Fault Unit} (hexit : finished.exit ≠ .status 0)
    (h : Program.Trace (t.run d arguments).run
      [⟨.start (t.invocation (some d) arguments), .ok finished⟩] x) :
    ∃ kept, LastLines 20 finished.stderr.data.toList kept ∧
      x = .error (.failed (t.commandLine arguments) finished.exit (Text.join "\n" kept)) := by
  rcases trace_bind.1 h with ⟨e, rfl, hstart⟩ | ⟨first, ended, rest, hes, hstart, hend⟩
  · obtain ⟨reply, hes, hreply⟩ := trace_start hstart
    cases hes
    cases hreply
  · obtain ⟨reply, rfl, hreply⟩ := trace_start hstart
    cases started_eq_ok.1 hreply.symm
    cases hes
    rw [if_pos hexit] at hend
    obtain ⟨-, rfl⟩ := Program.trace_done.1 hend
    exact ⟨_, lastLines_tail _, rfl⟩

end ClusterLedger.Terraform
