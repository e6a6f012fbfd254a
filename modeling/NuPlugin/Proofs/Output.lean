import NuPlugin.Proofs.Runner
import Mathlib.Data.List.DropRight
import Mathlib.Data.List.TakeWhile

/-!
# What a failed command wrote

Streams that hold nothing but blanks are not shown, and nothing else is left out but the newlines
at the end of a stream.
-/

namespace NuPlugin

/-! ## Blanks -/

namespace Text

theorem dropEndWhile_eq_nil_iff {p : Char → Bool} {s : List Char} :
    dropEndWhile p s = [] ↔ ∀ c ∈ s, p c = true :=
  List.rdropWhile_eq_nil_iff

theorem trim_eq_nil_iff {s : List Char} : trim s = [] ↔ ∀ c ∈ s, isBlank c = true := by
  rw [trim, dropEndWhile_eq_nil_iff]
  refine ⟨fun h => ?_, fun h c hc => h c ((List.dropWhile_sublist _).subset hc)⟩
  rw [← List.dropWhile_eq_nil_iff]
  by_contra hne
  have hhead := List.head_dropWhile_not isBlank hne
  rw [h _ (List.head_mem hne)] at hhead
  cases hhead

end Text

/-! ## Output -/

namespace CommandResult

theorem dropNewlines_ne_empty {s : String} (h : Text.isAllBlank s = false) :
    String.ofList (Text.dropEndWhile (· = '\n') s.toList) ≠ "" := by
  obtain ⟨c, hc, hblank⟩ := List.all_eq_false.1 h
  intro hempty
  have hnewline := Text.dropEndWhile_eq_nil_iff.1 (String.ofList_eq_empty_iff.1 hempty) c hc
  exact hblank (of_decide_eq_true hnewline ▸ rfl)

theorem output_eq_empty_iff (r : CommandResult) :
    r.output = "" ↔ Text.isAllBlank r.stdout = true ∧ Text.isAllBlank r.stderr = true := by
  unfold output
  cases hout : Text.isAllBlank r.stdout with
  | false =>
    have hfirst := dropNewlines_ne_empty hout
    cases herr : Text.isAllBlank r.stderr <;>
      simp [hout, herr, hfirst, String.intercalate_cons_cons, String.append_eq_empty_iff]
  | true =>
    cases herr : Text.isAllBlank r.stderr with
    | false => simp [hout, herr, dropNewlines_ne_empty herr]
    | true => simp [hout, herr]

/-- Of the stream, nothing but newlines at its end is left out. -/
structure Chomps (stream text : String) : Prop where
  getLast : text.toList.getLast? ≠ some '\n'
  newlines : ∃ n, stream.toList = text.toList ++ List.replicate n '\n'

theorem chomps_dropNewlines (stream : String) :
    Chomps stream (String.ofList (Text.dropEndWhile (· = '\n') stream.toList)) where
  getLast h := by
    rw [String.toList_ofList] at h
    obtain ⟨hne, hlast⟩ := List.mem_getLast?_eq_getLast h
    exact List.rdropWhile_last_not _ _ hne (decide_eq_true hlast.symm)
  newlines := by
    let ending := stream.toList.rtakeWhile fun c => decide (c = '\n')
    have hall : ∀ c ∈ ending, c = '\n' := by
      intro c hc
      simpa using List.mem_rtakeWhile_imp hc
    refine ⟨ending.length, ?_⟩
    rw [← List.eq_replicate_of_mem hall, String.toList_ofList]
    exact (List.rdropWhile_append_rtakeWhile ..).symm

theorem Chomps.isAllBlank_eq {stream text : String} (h : Chomps stream text) :
    Text.isAllBlank text = Text.isAllBlank stream := by
  obtain ⟨n, hn⟩ := h.newlines
  have hnewlines : (List.replicate n '\n').all Text.isBlank = true :=
    List.all_eq_true.2 fun c hc => List.eq_of_mem_replicate hc ▸ rfl
  rw [Text.isAllBlank, Text.isAllBlank, hn, List.all_append, hnewlines, Bool.and_true]

theorem dropNewlines_eq_self {s : String} (h : s.toList.getLast? ≠ some '\n') :
    String.ofList (Text.dropEndWhile (· = '\n') s.toList) = s := by
  have hself : s.toList.rdropWhile (· = '\n') = s.toList :=
    List.rdropWhile_eq_self_iff.2 fun hne hlast =>
      h (by rw [List.getLast?_eq_some_getLast hne, of_decide_eq_true hlast])
  exact (congrArg String.ofList hself).trans String.ofList_toList

/-- The streams that are not blank, standard output first, each without the newlines at its end,
and one newline between the two. -/
inductive Joins (r : CommandResult) : String → Prop
  | neither (hout : Text.isAllBlank r.stdout = true) (herr : Text.isAllBlank r.stderr = true) :
    Joins r ""
  | stdout {out : String} (hout : Text.isAllBlank r.stdout = false)
      (herr : Text.isAllBlank r.stderr = true) (h : Chomps r.stdout out) : Joins r out
  | stderr {err : String} (hout : Text.isAllBlank r.stdout = true)
      (herr : Text.isAllBlank r.stderr = false) (h : Chomps r.stderr err) : Joins r err
  | both {out err : String} (hout : Text.isAllBlank r.stdout = false)
      (herr : Text.isAllBlank r.stderr = false) (h : Chomps r.stdout out)
      (h' : Chomps r.stderr err) : Joins r (out ++ "\n" ++ err)

theorem output_joins (r : CommandResult) : r.Joins r.output := by
  have hchomps := chomps_dropNewlines
  unfold output
  cases hout : Text.isAllBlank r.stdout with
  | true =>
    cases herr : Text.isAllBlank r.stderr with
    | true => simpa [hout, herr] using Joins.neither hout herr
    | false => simpa [hout, herr] using Joins.stderr hout herr (hchomps _)
  | false =>
    cases herr : Text.isAllBlank r.stderr with
    | true => simpa [hout, herr] using Joins.stdout hout herr (hchomps _)
    | false =>
      simpa [hout, herr, String.intercalate_cons_cons, String.append_assoc] using
        Joins.both hout herr (hchomps _) (hchomps _)

namespace Joins

variable {r : CommandResult} {text : String}

theorem isAllBlank_eq (h : r.Joins text) :
    Text.isAllBlank text = (Text.isAllBlank r.stdout && Text.isAllBlank r.stderr) := by
  cases h with
  | neither hout herr => rw [hout, herr]; rfl
  | stdout hout herr h => rw [h.isAllBlank_eq, herr, Bool.and_true]
  | stderr hout herr h => rw [h.isAllBlank_eq, hout, Bool.true_and]
  | both hout herr h h' =>
    have hfirst := h.isAllBlank_eq.trans hout
    rw [Text.isAllBlank] at hfirst ⊢
    rw [String.toList_append, String.toList_append, List.all_append, List.all_append, hfirst, hout]
    rfl

theorem getLast (h : r.Joins text) : text.toList.getLast? ≠ some '\n' := by
  cases h with
  | neither => simp
  | stdout _ _ h => exact h.getLast
  | stderr _ _ h => exact h.getLast
  | @both _ err _ herr _ h' =>
    -- The second stream is not blank, so the newline in front of it is not the end.
    have hblank := h'.isAllBlank_eq.trans herr
    have hne : err.toList ≠ [] := by
      intro hnil
      rw [Text.isAllBlank, hnil] at hblank
      cases hblank
    rw [String.toList_append, List.getLast?_append_of_ne_nil _ hne]
    exact h'.getLast

end Joins

theorem output_of_stdout {code : Int} {text : String}
    (hlast : text.toList.getLast? ≠ some '\n') (hblank : Text.isAllBlank text = true → text = "") :
    (CommandResult.mk code text "").output = text := by
  unfold output
  cases h : Text.isAllBlank text with
  | true => simp [hblank h, show Text.isAllBlank "" = true from rfl]
  | false => simp [h, dropNewlines_eq_self hlast, show Text.isAllBlank "" = true from rfl]

/-- What is shown of a command holds all that it wrote, except for blank streams and for newlines
at the end of a stream. Shown again, it is the same. -/
structure ShowsAll (r : CommandResult) : Prop where
  empty_iff : r.output = "" ↔ Text.isAllBlank r.stdout = true ∧ Text.isAllBlank r.stderr = true
  getLast : r.output.toList.getLast? ≠ some '\n'
  joins : r.Joins r.output
  again : ∀ code, (CommandResult.mk code r.output "").output = r.output

theorem showsAll (r : CommandResult) : r.ShowsAll where
  empty_iff := r.output_eq_empty_iff
  getLast := r.output_joins.getLast
  joins := r.output_joins
  again _ := by
    refine output_of_stdout r.output_joins.getLast fun hblank => ?_
    rw [r.output_joins.isAllBlank_eq, Bool.and_eq_true] at hblank
    exact r.output_eq_empty_iff.2 hblank

def shown (r : CommandResult) : String := if r.output = "" then "" else r.output ++ "\n"

theorem shown_eq (r : CommandResult) :
    r.shown = if Text.isAllBlank r.stdout = true ∧ Text.isAllBlank r.stderr = true then ""
      else r.output ++ "\n" :=
  if_congr r.output_eq_empty_iff rfl rfl

theorem shown_nothing (code : Int) : (CommandResult.mk code "" "").shown = "" :=
  if_pos ((output_eq_empty_iff _).2 ⟨rfl, rfl⟩)

end CommandResult

/-- What is shown of a failed command where its streams were captured, beyond what is shown
anyhow. -/
def Reply.captured : Reply → String
  | .exited code stdout stderr => (CommandResult.mk code (stdout.getD "") (stderr.getD "")).shown
  | .notStarted _ => ""
  | .refused _ => ""

/-- Among commands that were started one after the other, this one ended with another exit code
than 0 and wrote what the result says. -/
inductive Fails (queue : List Reply) (argvs : List (List String)) :
    List String → CommandResult → Prop
  | exited {i : Nat} {argv : List String} {code : Int} {stdout stderr : Option String}
      (hargv : argvs[i]? = some argv) (hreply : replyAt queue i = .exited code stdout stderr)
      (hcode : code ≠ 0) :
    Fails queue argvs argv ⟨code, stdout.getD "", stderr.getD ""⟩

theorem not_fails_of_endsWell {queue : List Reply} {argvs : List (List String)}
    (h : ∀ i < argvs.length, (replyAt queue i).EndsWell) (argv : List String)
    (result : CommandResult) : ¬ Fails queue argvs argv result := by
  rintro ⟨hargv, hreply, hcode⟩
  have hwell := h _ (List.getElem?_eq_some_iff.1 hargv).1
  rw [hreply] at hwell
  exact hcode hwell

theorem Fails.last {queue : List Reply} {argvs : List (List String)} {argv failed : List String}
    {result : CommandResult} (h : Fails queue (argvs ++ [argv]) failed result)
    (hfront : ∀ i < argvs.length, (replyAt queue i).EndsWell) :
    failed = argv ∧ ∃ code stdout stderr,
      replyAt queue argvs.length = .exited code stdout stderr ∧
        result = ⟨code, stdout.getD "", stderr.getD ""⟩ := by
  obtain @⟨i, _, code, stdout, stderr, hargv, hreply, hcode⟩ := h
  rcases Nat.lt_or_ge i argvs.length with hi | hi
  · have hwell := hfront i hi
    rw [hreply] at hwell
    exact absurd hwell hcode
  · have hlength := (List.getElem?_eq_some_iff.1 hargv).1
    rw [List.length_append, List.length_singleton] at hlength
    obtain rfl : i = argvs.length := by omega
    rw [List.getElem?_concat_length] at hargv
    exact ⟨(Option.some.inj hargv).symm, code, stdout, stderr, hreply, rfl⟩

theorem Reply.captured_eq_empty {reply : Reply} (hfailed : ¬ reply.EndsWell)
    (h : ∀ code stdout stderr, reply = .exited code stdout stderr → code = 0) :
    reply.captured = "" := by
  cases reply with
  | exited code stdout stderr => exact absurd (h _ _ _ rfl) hfailed
  | notStarted e => rfl
  | refused reason => rfl

end NuPlugin
