import NuPlugin.Proofs.Toml.Document

/-!
# Control characters

Every reader passes over characters that may stand raw in a text of several lines, and over no
others. So a document that is read to its end holds no control character but tabs and newlines.
-/

namespace NuPlugin.Toml

variable {s r rest : List Char}

/-! ## Readers -/

/-- What `x` reads from the front of `s` holds no character that is refused. -/
def ReadsClean {α : Type} (s : List Char) (x : Except Fault (α × List Char)) : Prop :=
  ∀ a rest, x = .ok (a, rest) → Passes true s rest

namespace ReadsClean

variable {α β : Type} {x : Except Fault (α × List Char)}

theorem ok (a : α) (h : Passes true s rest) : ReadsClean s (.ok (a, rest)) := by
  intro a' rest' he
  cases he
  exact h

theorem error (s : List Char) (e : Fault) :
    ReadsClean s (.error e : Except Fault (α × List Char)) := by
  intro a rest he
  cases he

theorem mono (h : ReadsClean r x) (hr : Passes true s r) : ReadsClean s x := by
  intro a rest hx
  exact hr.trans (h a rest hx)

theorem cons {c : Char} (h : ReadsClean s x) (hc : isForbidden true c = false) :
    ReadsClean (c :: s) x :=
  h.mono ((Passes.refl true s).cons hc)

theorem bind {f : α × List Char → Except Fault (β × List Char)} (h : ReadsClean s x)
    (hf : ∀ a r, ReadsClean r (f (a, r))) : ReadsClean s (x >>= f) := by
  intro b rest he
  obtain ⟨⟨a, r⟩, hx, hfx⟩ := bind_eq_ok.1 he
  exact (h a r hx).trans (hf a r b rest hfx)

theorem bind_ok {f : α × List Char → β × List Char} (h : ReadsClean s x)
    (hf : ∀ a r, (f (a, r)).2 = r) : ReadsClean s (x >>= fun read => .ok (f read)) := by
  refine h.bind fun a r => .ok _ ?_
  rw [hf a r]
  exact .refl true r

theorem located_bind {x : Except Cause α} {f : α → Except Fault (β × List Char)}
    (place : List Char) (hf : ∀ a, ReadsClean s (f a)) : ReadsClean s (located place x >>= f) := by
  cases x with
  | ok a => exact hf a
  | error cause => exact .error s _

theorem blanks_bind {f : List Char → Except Fault (α × List Char)} (inComment : Bool)
    (hf : ∀ r, ReadsClean r (f r)) : ReadsClean s (skipBlanks inComment s >>= f) := by
  intro a rest he
  obtain ⟨r, hskip, hfr⟩ := bind_eq_ok.1 he
  exact (skipBlanks_passes hskip).trans (hf r a rest hfr)

end ReadsClean

/-! ## Texts -/

theorem isForbidden_of_quote {quote : Char} (hquote : quote = '"' ∨ quote = '\'') (lines : Bool) :
    isForbidden lines quote = false := by
  rcases hquote with rfl | rfl <;> exact isForbidden_eq_false (by decide) (by decide) lines

theorem Closes.passes {lines : Bool} {quote : Char} (hquote : quote = '"' ∨ quote = '\'')
    (h : Closes lines quote s rest) : Passes lines s rest := by
  obtain ⟨w, rfl, hw⟩ := h
  refine ⟨w ++ closingMark lines quote, by rw [List.append_assoc], ?_⟩
  intro c hc
  rcases List.mem_append.1 hc with hc | hc
  · exact hw c hc
  · have hmark : c = quote := by
      unfold closingMark at hc
      split at hc <;> simpa using hc
    rw [hmark]
    exact isForbidden_of_quote hquote lines

theorem textBody_clean {quote : Char} (hquote : quote = '"' ∨ quote = '\'') (lines : Bool)
    (s : List Char) : ReadsClean s (textBody lines quote s) := by
  intro body rest h
  have hpasses := (textBody_closes hquote h).passes hquote
  cases lines with
  | true => exact hpasses
  | false => exact hpasses.ofLine true

theorem extraQuotes_passes {quote : Char} (hquote : quote = '"' ∨ quote = '\'') (s : List Char) :
    Passes true s (extraQuotes quote s).2 := by
  refine ⟨(extraQuotes quote s).1,
    (List.prefix_iff_eq_append.1 (extraQuotes_isPrefix quote s)).symm, fun c hc => ?_⟩
  have hquoted : decide (c = quote) = true :=
    List.mem_takeWhile_imp (p := fun d => decide (d = quote)) hc
  rw [of_decide_eq_true hquoted]
  exact isForbidden_of_quote hquote true

theorem textAfter_clean {quote : Char} (hquote : quote = '"' ∨ quote = '\'') (s : List Char) :
    ReadsClean s (textAfter quote s) := by
  unfold textAfter
  split
  · next hp =>
    obtain ⟨s, rfl⟩ := List.isPrefixOf_iff_prefix.1 hp
    have hcons := isForbidden_of_quote hquote true
    change ReadsClean (quote :: quote :: s) (textBody true quote (dropFirstNewline s) >>= _)
    refine (ReadsClean.cons ?_ hcons).cons hcons
    refine ((textBody_clean hquote true _).mono (dropFirstNewline_passes s)).bind fun body r => ?_
    exact .ok _ (extraQuotes_passes hquote r)
  · exact textBody_clean hquote false s

/-! ## Keys -/

namespace Key

theorem isForbidden_of_isBare {c : Char} (h : isBare c = true) : isForbidden false c = false := by
  simp only [isBare, Bool.or_eq_true, decide_eq_true_eq] at h
  rcases h with (halphanum | rfl) | rfl
  · change (decide ('A' ≤ c ∧ c ≤ 'Z') || (decide ('a' ≤ c) && decide (c ≤ 'z')) ||
      c.isDigit) = true at halphanum
    simp only [Bool.or_eq_true, Bool.and_eq_true, decide_eq_true_eq] at halphanum
    rcases halphanum with (hupper | hlower) | hdigit
    · exact isForbidden_of_between hupper (by decide) (by decide)
    · exact isForbidden_of_between hlower (by decide) (by decide)
    · exact isForbidden_of_isDigit hdigit
  · decide
  · decide

theorem part_clean (s : List Char) : ReadsClean s (part s) := by
  cases s with
  | nil => exact .error _ _
  | cons c s =>
    rw [part]
    split
    · exact .ok _ ((Passes.dropWhile (fun _ => isForbidden_of_isBare) _).ofLine true)
    · split
      · next hc =>
        refine ReadsClean.cons ?_ (isForbidden_of_quote hc true)
        exact (textBody_clean hc false s).bind_ok fun _ _ => rfl
      · exact .error _ _

theorem readIn_clean (parts : Nat) (s : List Char) : ReadsClean s (readIn parts s) := by
  induction parts generalizing s with
  | zero => exact .error _ _
  | succ parts ih =>
    rw [readIn]
    refine (part_clean s).bind fun name r => ?_
    dsimp only
    have hr := skipSpaces_passes true r
    split
    · next r' hdot =>
      rw [hdot] at hr
      refine ReadsClean.mono ?_ hr
      refine ReadsClean.cons ?_ (by decide)
      exact ((ih _).mono (skipSpaces_passes true r')).bind_ok fun _ _ => rfl
    · exact .ok _ hr

theorem read_clean (s : List Char) : ReadsClean s (read s) := readIn_clean _ s

end Key

/-! ## Values -/

section

variable {item : ValueReader} (hitem : ∀ s, ReadsClean s (item s))

include hitem

theorem itemsIn_clean (items : Nat) (s : List Char) : ReadsClean s (itemsIn item items s) := by
  induction items generalizing s with
  | zero => exact .error _ _
  | succ items ih =>
    rw [itemsIn]
    refine (hitem s).bind fun v r => .blanks_bind false fun r => ?_
    split
    · exact .ok _ ((Passes.refl true _).cons (by decide))
    · refine (ReadsClean.blanks_bind false fun r => ?_).cons (by decide)
      split
      · exact .ok _ ((Passes.refl true _).cons (by decide))
      · exact (ih r).bind_ok fun _ _ => rfl
    · exact .error _ _

theorem arrayAfter_clean (s : List Char) : ReadsClean s (arrayAfter item s) := by
  refine .blanks_bind false fun r => ?_
  split
  · exact .ok _ ((Passes.refl true _).cons (by decide))
  · exact (itemsIn_clean hitem _ r).bind_ok fun _ _ => rfl

theorem pair_clean (s : List Char) : ReadsClean s (pair item s) := by
  refine (Key.read_clean s).bind fun k r => ?_
  dsimp only
  split
  · next r =>
    refine ReadsClean.cons ?_ (by decide)
    exact ((hitem _).mono (skipSpaces_passes true r)).bind_ok fun _ _ => rfl
  · exact .error _ _

theorem pairsIn_clean (pairs : Nat) (m : Marks) (t : Table) (s : List Char) :
    ReadsClean s (pairsIn item pairs m t s) := by
  induction pairs generalizing m t s with
  | zero => exact .error _ _
  | succ pairs ih =>
    rw [pairsIn]
    refine (pair_clean hitem s).bind fun kv r => ?_
    obtain ⟨k, v⟩ := kv
    refine .located_bind r fun t => ?_
    refine ReadsClean.mono ?_ (skipSpaces_passes true r)
    split
    · next r' he =>
      rw [he]
      exact .ok t ((Passes.refl true r').cons (by decide))
    · next r' he =>
      rw [he]
      exact ((ih _ t _).mono (skipSpaces_passes true r')).cons (by decide)
    · exact .error _ _

theorem inlineTableAfter_clean (s : List Char) : ReadsClean s (inlineTableAfter item s) := by
  unfold inlineTableAfter
  refine ReadsClean.mono ?_ (skipSpaces_passes true s)
  split
  · next r he =>
    rw [he]
    exact .ok _ ((Passes.refl true r).cons (by decide))
  · exact (pairsIn_clean hitem _ .none [] _).bind_ok fun _ _ => rfl

end

namespace Value

theorem readIn_clean (depth : Nat) (s : List Char) : ReadsClean s (readIn depth s) := by
  induction depth generalizing s with
  | zero => exact .error _ _
  | succ depth ih =>
    cases s with
    | nil => exact .error _ _
    | cons c s =>
      rw [readIn]
      dsimp only
      split
      · next hc =>
        refine ReadsClean.cons ?_ (isForbidden_of_quote hc true)
        exact (textAfter_clean hc s).bind_ok fun _ _ => rfl
      · split
        · next hc => exact (arrayAfter_clean ih s).cons (hc ▸ by decide)
        · split
          · next hc => exact (inlineTableAfter_clean ih s).cons (hc ▸ by decide)
          · intro v rest h
            obtain ⟨r, hskip, h⟩ := bind_eq_ok.1 h
            cases h
            exact (skipScalar_passes hskip).ofLine true

theorem read_clean (s : List Char) : ReadsClean s (read s) := readIn_clean _ s

end Value

/-! ## Documents -/

namespace Draft

variable {d d' : Draft}

theorem pairStatement_clean (d : Draft) (s : List Char) : ReadsClean s (d.pairStatement s) := by
  refine (pair_clean Value.read_clean s).bind fun (k, v) r => .located_bind r fun d => ?_
  exact .ok d (.refl true r)

theorem tableHeader_clean (d : Draft) (s : List Char) : ReadsClean s (d.tableHeader s) := by
  refine ((Key.read_clean _).mono (skipSpaces_passes true s)).bind fun k r => ?_
  refine .located_bind r fun d => ?_
  split
  · exact .ok d ((Passes.refl true _).cons (by decide))
  · exact .error _ _

theorem elementHeader_clean (d : Draft) (s : List Char) : ReadsClean s (d.elementHeader s) := by
  refine ((Key.read_clean _).mono (skipSpaces_passes true s)).bind fun k r => ?_
  refine .located_bind r fun d => ?_
  split
  · exact .ok d (((Passes.refl true _).cons (by decide)).cons (by decide))
  · exact .error _ _

theorem statement_clean (d : Draft) (s : List Char) : ReadsClean s (d.statement s) := by
  unfold statement
  split
  · exact ((d.settle.elementHeader_clean _).cons (by decide)).cons (by decide)
  · exact (d.settle.tableHeader_clean _).cons (by decide)
  · exact .ok d (.refl true _)
  · split
    · exact d.pairStatement_clean _
    · exact .error _ _
  · exact .error _ _

theorem lineEnd_passes (h : lineEnd s = .ok rest) : Passes true s rest := by
  have hskip : ∀ {r}, skipComment (skipSpaces s) = .ok r → Passes true s r := fun hr =>
    (skipSpaces_passes true s).trans ((skipComment_passes hr).ofLine true)
  rcases lineEnd_eq_ok h with hnewline | ⟨hnil, rfl⟩
  · exact (hskip hnewline).trans ((Passes.refl true rest).cons (by decide))
  · exact hskip hnil

theorem line_passes (h : d.line s = .ok (d', rest)) : Passes true s rest := by
  obtain ⟨⟨d'', r⟩, hstatement, h⟩ := bind_eq_ok.1 h
  obtain ⟨rest', hend, h⟩ := bind_eq_ok.1 h
  cases h
  exact (d.statement_clean s _ _ hstatement).trans (lineEnd_passes hend)

theorem readAll_passes (h : d.readAll s = .ok d') : Passes true s [] := by
  induction d, s using readAll_induct with
  | blank d s hskip =>
    have hs := skipSpaces_passes true s
    rwa [hskip] at hs
  | newline d s rest hskip ih =>
    have hs := skipSpaces_passes true s
    rw [hskip] at hs
    rw [readAll_of_newline hskip] at h
    exact hs.trans ((ih h).cons (by decide))
  | line d s c rest hskip hc ih =>
    have hs := skipSpaces_passes true s
    rw [readAll_of_line hskip hc] at h
    rw [hskip] at hs h
    obtain ⟨⟨d₁, r⟩, hline, h⟩ := bind_eq_ok.1 h
    exact (hs.trans (line_passes hline)).trans (ih d₁ r hline h)

theorem readAll_clean (h : d.readAll s = .ok d') : ∀ c ∈ s, isForbidden true c = false := by
  obtain ⟨w, hs, hw⟩ := readAll_passes h
  rw [List.append_nil] at hs
  rwa [hs]

/-- The reader of a document leaves a text that has been read as it is. -/
theorem return_notMem_of_readAll (h : d.readAll s = .ok d') : '\r' ∉ s := fun hreturn =>
  absurd (readAll_clean h _ hreturn) (by decide)

end Draft

end NuPlugin.Toml
