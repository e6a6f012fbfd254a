import NuPlugin.Proofs.Toml.Seam
import NuPlugin.Toml.Token

/-!
# Text literals across a seam

A text literal ends with its closing mark, so nothing that follows it can change what it is.
-/

namespace NuPlugin.Toml

variable {s t rest body : List Char} {lines : Bool} {quote : Char}

/-! ## Marks -/

theorem isPrefixOf_append_of_length_le {w : List Char} (h : w.length ≤ s.length)
    (t : List Char) : w.isPrefixOf (s ++ t) = w.isPrefixOf s := by
  rw [Bool.eq_iff_iff, List.isPrefixOf_iff_prefix, List.isPrefixOf_iff_prefix]
  exact ⟨fun hp => List.prefix_of_prefix_length_le hp (List.prefix_append s t) h,
    fun hp => hp.trans (List.prefix_append s t)⟩

/-- A text that stands before its closing mark, and what follows the mark. -/
def Closes (lines : Bool) (quote : Char) (s rest : List Char) : Prop :=
  ∃ w, s = w ++ (closingMark lines quote ++ rest) ∧ ∀ c ∈ w, isForbidden lines c = false

theorem closingMark_ne_nil (lines : Bool) (quote : Char) : closingMark lines quote ≠ [] := by
  cases lines <;> exact List.cons_ne_nil _ _

theorem getLast?_closingMark (lines : Bool) (quote : Char) :
    (closingMark lines quote).getLast? = some quote := by
  cases lines <;> rfl

namespace Closes

theorem cons {c : Char} (hc : isForbidden lines c = false) (h : Closes lines quote s rest) :
    Closes lines quote (c :: s) rest := by
  obtain ⟨w, rfl, hw⟩ := h
  exact ⟨c :: w, rfl, fun d hd => (List.mem_cons.1 hd).elim (fun he => he ▸ hc) (hw d)⟩

theorem of_passes {r : List Char} (h : Passes lines s r) (h' : Closes lines quote r rest) :
    Closes lines quote s rest := by
  obtain ⟨w, rfl, hw⟩ := h
  obtain ⟨w', rfl, hw'⟩ := h'
  exact ⟨w ++ w', by rw [List.append_assoc], fun c hc =>
    (List.mem_append.1 hc).elim (hw c) (hw' c)⟩

theorem length_le (h : Closes lines quote s rest) :
    (closingMark lines quote).length ≤ s.length := by
  obtain ⟨w, rfl, -⟩ := h
  rw [List.length_append, List.length_append]
  omega

theorem leaves (hquote : quote = '"' ∨ quote = '\'') (h : Closes lines quote s rest) :
    Leaves s rest := by
  obtain ⟨w, rfl, -⟩ := h
  refine ⟨w ++ closingMark lines quote, by rw [List.append_assoc], ?_⟩
  rw [List.getLast?_append_of_ne_nil _ (closingMark_ne_nil lines quote), getLast?_closingMark]
  rcases hquote with rfl | rfl <;> decide

theorem ne_nil (h : Closes lines quote s rest) : s ≠ [] := by
  obtain ⟨w, rfl, -⟩ := h
  simp [closingMark_ne_nil]

end Closes

/-! ## Literal texts -/

theorem cutAt_eq_some {mark : List Char} (h : cutAt mark s = some (body, rest)) :
    s = body ++ (mark ++ rest) := by
  induction s generalizing body with
  | nil => cases h
  | cons c s ih =>
    rw [cutAt] at h
    split at h
    · next hp =>
      obtain ⟨r, hr⟩ := List.isPrefixOf_iff_prefix.1 hp
      simp only [Option.some.injEq, Prod.mk.injEq] at h
      obtain ⟨rfl, rfl⟩ := h
      rw [← hr, List.drop_left, List.nil_append]
    · rw [Option.map_eq_some_iff] at h
      obtain ⟨⟨before, after⟩, hcut, he⟩ := h
      simp only [Prod.mk.injEq] at he
      obtain ⟨rfl, rfl⟩ := he
      rw [ih hcut, List.cons_append]

theorem cutAt_append {mark : List Char} (h : cutAt mark s = some (body, rest)) (t : List Char) :
    cutAt mark (s ++ t) = some (body, rest ++ t) := by
  induction s generalizing body with
  | nil => cases h
  | cons c s ih =>
    have hlength : mark.length ≤ (c :: s).length := by
      rw [cutAt_eq_some h, List.length_append, List.length_append]
      omega
    have hmark := isPrefixOf_append_of_length_le hlength t
    rw [cutAt] at h
    rw [List.cons_append, cutAt, ← List.cons_append, hmark]
    split at h
    · next hp =>
      simp only [Option.some.injEq, Prod.mk.injEq] at h
      obtain ⟨rfl, rfl⟩ := h
      rw [if_pos hp, List.drop_append_of_le_length hlength]
    · next hp =>
      rw [Option.map_eq_some_iff] at h
      obtain ⟨⟨before, after⟩, hcut, he⟩ := h
      simp only [Prod.mk.injEq] at he
      obtain ⟨rfl, rfl⟩ := he
      rw [if_neg hp, ih hcut]
      rfl

theorem literal_eq_ok (h : literal lines s = .ok (body, rest)) :
    cutAt (closingMark lines '\'') s = some (body, rest) ∧
      body.find? (isForbidden lines) = none := by
  unfold literal at h
  dsimp only at h
  split at h
  · cases h
  · next before after hcut =>
    split at h
    · cases h
    · next hfind =>
      simp only [Except.ok.injEq, Prod.mk.injEq] at h
      obtain ⟨rfl, rfl⟩ := h
      exact ⟨hcut, hfind⟩

theorem literal_closes (h : literal lines s = .ok (body, rest)) : Closes lines '\'' s rest := by
  obtain ⟨hcut, hfind⟩ := literal_eq_ok h
  refine ⟨body, cutAt_eq_some hcut, fun c hc => ?_⟩
  exact Bool.eq_false_iff.2 (List.find?_eq_none.1 hfind c hc)

theorem literal_append (h : literal lines s = .ok (body, rest)) (t : List Char) :
    literal lines (s ++ t) = .ok (body, rest ++ t) := by
  obtain ⟨hcut, hfind⟩ := literal_eq_ok h
  unfold literal
  simp only [cutAt_append hcut t, hfind]

/-! ## Escapes -/

theorem dropWhile_append_of_ne_nil {p : Char → Bool} (h : s.dropWhile p ≠ []) (t : List Char) :
    (s ++ t).dropWhile p = s.dropWhile p ++ t := by
  rw [List.dropWhile_append, if_neg (by simpa using h)]

theorem isForbidden_of_hexValue? {c : Char} {n : Nat} (h : hexValue? c = some n) :
    isForbidden false c = false := by
  have hc : (48 ≤ c.toNat ∧ c.toNat ≤ 57) ∨ (97 ≤ c.toNat ∧ c.toNat ≤ 102) ∨
      (65 ≤ c.toNat ∧ c.toNat ≤ 70) := by
    unfold hexValue? at h
    dsimp only at h
    split at h
    · next hd => exact Or.inl hd
    · split at h
      · next hl => exact Or.inr (Or.inl hl)
      · split at h
        · next hu => exact Or.inr (Or.inr hu)
        · cases h
  exact isForbidden_eq_false (by omega) (by omega) false

theorem isForbidden_of_shortEscape? {c d : Char} (h : shortEscape? c = some d) :
    isForbidden false c = false := by
  unfold shortEscape? at h
  split at h
  all_goals first | decide | cases h

theorem isForbidden_of_foldlM_hexValue? {digits : List Char} {n m : Nat}
    (h : digits.foldlM (fun n c => (hexValue? c).map (n * 16 + ·)) n = some m) :
    ∀ c ∈ digits, isForbidden false c = false := by
  induction digits generalizing n with
  | nil => simp
  | cons d digits ih =>
    rw [List.foldlM_cons, Option.bind_eq_bind, Option.bind_eq_some_iff] at h
    obtain ⟨k, hd, hdigits⟩ := h
    obtain ⟨v, hv, -⟩ := Option.map_eq_some_iff.1 hd
    intro c hc
    rcases List.mem_cons.1 hc with rfl | hc
    · exact isForbidden_of_hexValue? hv
    · exact ih hdigits c hc

theorem hexChar_eq_ok {width : Nat} (h : hexChar width s = .ok (body, rest)) :
    (s.take width).length = width ∧ rest = s.drop width ∧
      ∃ n, hexNumber? (s.take width) = some n ∧ n.isValidChar ∧ body = [Char.ofNat n] := by
  unfold hexChar at h
  dsimp only at h
  split at h
  · cases h
  · next n hn =>
    split at hn
    · next hlength =>
      split at h
      · next hvalid =>
        simp only [Except.ok.injEq, Prod.mk.injEq] at h
        exact ⟨hlength, h.2.symm, n, hn, hvalid, h.1.symm⟩
      · cases h
    · cases hn

theorem hexChar_passes {width : Nat} (h : hexChar width s = .ok (body, rest)) :
    Passes false s rest := by
  obtain ⟨-, rfl, n, hn, -⟩ := hexChar_eq_ok h
  exact ⟨s.take width, (List.take_append_drop width s).symm, isForbidden_of_foldlM_hexValue? hn⟩

theorem hexChar_append {width : Nat} (h : hexChar width s = .ok (body, rest)) (t : List Char) :
    hexChar width (s ++ t) = .ok (body, rest ++ t) := by
  obtain ⟨hlength, rfl, n, hn, hvalid, rfl⟩ := hexChar_eq_ok h
  have hle : width ≤ s.length := by
    rw [List.length_take] at hlength
    omega
  unfold hexChar
  simp only [List.take_append_of_le_length hle, List.drop_append_of_le_length hle, hlength, hn,
    hvalid, if_true]

theorem escape_newline (s : List Char) :
    escape true ('\n' :: s) = .ok ([], s.dropWhile isSpaceOrNewline) := rfl

theorem escape_blanks {c : Char} {after : List Char} (hc : isSpace c = true)
    (hs : skipSpaces s = '\n' :: after) :
    escape true (c :: s) = .ok ([], after.dropWhile isSpaceOrNewline) := by
  have hne : c ≠ '\n' := by
    rintro rfl
    cases hc
  simp [escape, hne, hc, hs]

theorem escape_hex4 (lines : Bool) (s : List Char) : escape lines ('u' :: s) = hexChar 4 s := by
  cases lines <;> rfl

theorem escape_hex8 (lines : Bool) (s : List Char) : escape lines ('U' :: s) = hexChar 8 s := by
  cases lines <;> rfl

theorem escape_short {c d : Char} (h : shortEscape? c = some d) (lines : Bool) (s : List Char) :
    escape lines (c :: s) = .ok ([d], s) := by
  unfold shortEscape? at h
  split at h
  all_goals first
    | cases h; cases lines <;> rfl
    | cases h

theorem escape_eq_ok (h : escape lines s = .ok (body, rest)) :
    ∃ c r, s = c :: r ∧
      ((lines = true ∧ c = '\n' ∧ body = [] ∧ rest = r.dropWhile isSpaceOrNewline) ∨
        (lines = true ∧ isSpace c = true ∧ body = [] ∧
          (skipSpaces r = [] ∧ rest = [] ∨
            ∃ after, skipSpaces r = '\n' :: after ∧ rest = after.dropWhile isSpaceOrNewline)) ∨
        (c = 'u' ∧ hexChar 4 r = .ok (body, rest)) ∨
        (c = 'U' ∧ hexChar 8 r = .ok (body, rest)) ∨
        ∃ d, shortEscape? c = some d ∧ body = [d] ∧ rest = r) := by
  cases s with
  | nil => cases h
  | cons c r =>
    refine ⟨c, r, rfl, ?_⟩
    rw [escape] at h
    split at h
    · next hc =>
      cases h
      simp only [Bool.and_eq_true, decide_eq_true_eq] at hc
      exact Or.inl ⟨hc.1, hc.2, rfl, rfl⟩
    · split at h
      · next hc =>
        rw [Bool.and_eq_true] at hc
        refine Or.inr (Or.inl ⟨hc.1, hc.2, ?_⟩)
        split at h
        · next hs =>
          cases h
          exact ⟨rfl, Or.inl ⟨hs, rfl⟩⟩
        · next d after hs =>
          split at h
          · next hd =>
            cases h
            exact ⟨rfl, Or.inr ⟨after, by rw [hs, hd], rfl⟩⟩
          · cases h
      · split at h
        · next hc => exact Or.inr (Or.inr (Or.inl ⟨hc, h⟩))
        · split at h
          · next hc => exact Or.inr (Or.inr (Or.inr (Or.inl ⟨hc, h⟩)))
          · split at h
            · next d hd =>
              cases h
              exact Or.inr (Or.inr (Or.inr (Or.inr ⟨d, hd, rfl, rfl⟩)))
            · cases h

theorem escape_passes (h : escape lines s = .ok (body, rest)) : Passes lines s rest := by
  obtain ⟨c, r, rfl, hcases⟩ := escape_eq_ok h
  rcases hcases with ⟨rfl, rfl, -, rfl⟩ | ⟨rfl, hc, -, hblanks⟩ | ⟨rfl, hhex⟩ | ⟨rfl, hhex⟩ |
    ⟨d, hd, -, rfl⟩
  · exact (Passes.dropWhile (fun _ => isForbidden_spaceOrNewline) r).cons (by decide)
  · refine .cons (isForbidden_space hc true) ((skipSpaces_passes true r).trans ?_)
    rcases hblanks with ⟨hs, rfl⟩ | ⟨after, hs, rfl⟩
    · rw [hs]
      exact .refl true []
    · rw [hs]
      exact (Passes.dropWhile (fun _ => isForbidden_spaceOrNewline) after).cons (by decide)
  · exact ((hexChar_passes hhex).cons (by decide)).ofLine lines
  · exact ((hexChar_passes hhex).cons (by decide)).ofLine lines
  · exact ((Passes.refl false rest).cons (isForbidden_of_shortEscape? hd)).ofLine lines

/-- As long as something is left, no blank that follows a line's end can be added to the escape. -/
theorem escape_append (h : escape lines s = .ok (body, rest)) (hrest : rest ≠ [])
    (t : List Char) : escape lines (s ++ t) = .ok (body, rest ++ t) := by
  obtain ⟨c, r, rfl, hcases⟩ := escape_eq_ok h
  rcases hcases with ⟨rfl, rfl, rfl, rfl⟩ | ⟨rfl, hc, rfl, hblanks⟩ | ⟨rfl, hhex⟩ | ⟨rfl, hhex⟩ |
    ⟨d, hd, rfl, rfl⟩
  · rw [List.cons_append, escape_newline, dropWhile_append_of_ne_nil hrest]
  · rcases hblanks with ⟨-, rfl⟩ | ⟨after, hs, rfl⟩
    · exact absurd rfl hrest
    · have hwhole : skipSpaces (r ++ t) = '\n' :: (after ++ t) := by
        unfold skipSpaces at hs ⊢
        rw [dropWhile_append_of_ne_nil (hs ▸ List.cons_ne_nil _ _), hs, List.cons_append]
      rw [List.cons_append, escape_blanks hc hwhole, dropWhile_append_of_ne_nil hrest]
  · rw [List.cons_append, escape_hex4, hexChar_append hhex t]
  · rw [List.cons_append, escape_hex8, hexChar_append hhex t]
  · exact escape_short hd lines (rest ++ t)

/-! ## Basic texts -/

theorem basicIn_mark {steps : Nat} {c : Char}
    (h : (closingMark lines '"').isPrefixOf (c :: s) = true) :
    basicIn lines (steps + 1) (c :: s) = .ok ([], (c :: s).drop (closingMark lines '"').length) :=
  if_pos h

theorem basicIn_escape {steps : Nat} {escaped r : List Char}
    (hmark : (closingMark lines '"').isPrefixOf ('\\' :: s) = false)
    (hescape : escape lines s = .ok (escaped, r))
    (hin : basicIn lines steps r = .ok (body, rest)) :
    basicIn lines (steps + 1) ('\\' :: s) = .ok (escaped ++ body, rest) := by
  simp only [basicIn, hmark, Bool.false_eq_true, if_false, if_true, hescape, ok_bind, hin]
  rfl

theorem basicIn_char {steps : Nat} {c : Char}
    (hmark : (closingMark lines '"').isPrefixOf (c :: s) = false) (hc : c ≠ '\\')
    (hpass : isForbidden lines c = false) (hin : basicIn lines steps s = .ok (body, rest)) :
    basicIn lines (steps + 1) (c :: s) = .ok (c :: body, rest) := by
  simp only [basicIn, hmark, Bool.false_eq_true, if_false, hc, hpass, hin, ok_bind]
  rfl

theorem basicIn_eq_ok {steps : Nat} (h : basicIn lines steps s = .ok (body, rest)) :
    ∃ c r steps', s = c :: r ∧ steps = steps' + 1 ∧
      (((closingMark lines '"').isPrefixOf s = true ∧ body = [] ∧
          rest = s.drop (closingMark lines '"').length) ∨
        (closingMark lines '"').isPrefixOf s = false ∧
          ((c = '\\' ∧ ∃ escaped r' inner, escape lines r = .ok (escaped, r') ∧
              basicIn lines steps' r' = .ok (inner, rest) ∧ body = escaped ++ inner) ∨
            c ≠ '\\' ∧ isForbidden lines c = false ∧
              ∃ inner, basicIn lines steps' r = .ok (inner, rest) ∧ body = c :: inner)) := by
  cases s with
  | nil => cases steps <;> cases h
  | cons c r =>
    cases steps with
    | zero => cases h
    | succ steps =>
      refine ⟨c, r, steps, rfl, rfl, ?_⟩
      rw [basicIn] at h
      dsimp only at h
      split at h
      · next hmark =>
        cases h
        exact Or.inl ⟨hmark, rfl, rfl⟩
      · next hmark =>
        refine Or.inr ⟨Bool.eq_false_iff.2 hmark, ?_⟩
        split at h
        · next hc =>
          obtain ⟨⟨escaped, r'⟩, hescape, h⟩ := bind_eq_ok.1 h
          obtain ⟨⟨inner, r''⟩, hin, h⟩ := bind_eq_ok.1 h
          cases h
          exact Or.inl ⟨hc, escaped, r', inner, hescape, hin, rfl⟩
        · next hc =>
          split at h
          · cases h
          · next hpass =>
            obtain ⟨⟨inner, r''⟩, hin, h⟩ := bind_eq_ok.1 h
            cases h
            exact Or.inr ⟨hc, Bool.eq_false_iff.2 hpass, inner, hin, rfl⟩

theorem basicIn_closes {steps : Nat} (h : basicIn lines steps s = .ok (body, rest)) :
    Closes lines '"' s rest := by
  induction steps generalizing s body with
  | zero => cases s <;> cases h
  | succ steps ih =>
    obtain ⟨c, r, steps, rfl, hsteps, hcases⟩ := basicIn_eq_ok h
    obtain rfl := Nat.succ.inj hsteps
    rcases hcases with ⟨hmark, -, rfl⟩ | ⟨-, hcases⟩
    · obtain ⟨after, hafter⟩ := List.isPrefixOf_iff_prefix.1 hmark
      rw [← hafter, List.drop_left]
      exact ⟨[], rfl, by simp⟩
    · rcases hcases with ⟨rfl, escaped, r', inner, hescape, hin, -⟩ | ⟨-, hpass, inner, hin, -⟩
      · have hbackslash : isForbidden lines '\\' = false := by
          cases lines <;> decide
        exact .of_passes ((escape_passes hescape).cons hbackslash) (ih hin)
      · exact (ih hin).cons hpass

theorem basicIn_append {steps steps' : Nat} (hle : steps ≤ steps')
    (h : basicIn lines steps s = .ok (body, rest)) (t : List Char) :
    basicIn lines steps' (s ++ t) = .ok (body, rest ++ t) := by
  induction steps generalizing s body steps' with
  | zero => cases s <;> cases h
  | succ steps ih =>
    obtain ⟨steps', rfl⟩ : ∃ n, steps' = n + 1 := ⟨steps' - 1, by omega⟩
    have hlength := (basicIn_closes h).length_le
    have hmark' := isPrefixOf_append_of_length_le hlength t
    obtain ⟨c, r, steps, rfl, hsteps, hcases⟩ := basicIn_eq_ok h
    obtain rfl := Nat.succ.inj hsteps
    rw [List.cons_append] at hmark' ⊢
    rcases hcases with ⟨hmark, rfl, rfl⟩ | ⟨hmark, hcases⟩
    · rw [basicIn_mark (hmark'.trans hmark), ← List.cons_append,
        List.drop_append_of_le_length hlength]
    · rcases hcases with ⟨rfl, escaped, r', inner, hescape, hin, rfl⟩ |
        ⟨hc, hpass, inner, hin, rfl⟩
      · have hescape' := escape_append hescape (basicIn_closes hin).ne_nil t
        exact basicIn_escape (hmark'.trans hmark) hescape' (ih (by omega) hin)
      · exact basicIn_char (hmark'.trans hmark) hc hpass (ih (by omega) hin)

/-! ## All literals -/

theorem textBody_closes (hquote : quote = '"' ∨ quote = '\'')
    (h : textBody lines quote s = .ok (body, rest)) : Closes lines quote s rest := by
  unfold textBody at h
  rcases hquote with rfl | rfl
  · exact basicIn_closes h
  · exact literal_closes h

theorem textBody_append (hquote : quote = '"' ∨ quote = '\'')
    (h : textBody lines quote s = .ok (body, rest)) (t : List Char) :
    textBody lines quote (s ++ t) = .ok (body, rest ++ t) := by
  unfold textBody at h ⊢
  rcases hquote with rfl | rfl
  · refine basicIn_append ?_ h t
    rw [List.length_append]
    omega
  · exact literal_append h t

theorem dropFirstNewline_append (h : s ≠ []) (t : List Char) :
    dropFirstNewline (s ++ t) = dropFirstNewline s ++ t := by
  cases s with
  | nil => exact absurd rfl h
  | cons c s =>
    by_cases hc : c = '\n'
    · subst hc
      rfl
    · simp [dropFirstNewline, hc]

theorem dropFirstNewline_passes (s : List Char) : Passes true s (dropFirstNewline s) := by
  unfold dropFirstNewline
  split
  · exact (Passes.refl true _).cons (by decide)
  · exact Passes.refl true _

theorem extraQuotes_isPrefix (quote : Char) (s : List Char) : (extraQuotes quote s).1 <+: s :=
  (List.takeWhile_prefix _).trans (List.take_prefix 2 s)

theorem extraQuotes_leaves (hquote : quote ≠ '\n') (s : List Char) :
    Leaves s (extraQuotes quote s).2 := by
  refine ⟨(extraQuotes quote s).1,
    (List.prefix_iff_eq_append.1 (extraQuotes_isPrefix quote s)).symm, fun hn => ?_⟩
  have hmem := List.mem_takeWhile_imp (List.mem_of_getLast? hn)
  exact hquote (of_decide_eq_true hmem).symm

theorem extraQuotes_append (hquote : quote ≠ '\n') (hs : Seam s t) :
    extraQuotes quote (s ++ t) = ((extraQuotes quote s).1, (extraQuotes quote s).2 ++ t) := by
  have hextra : ((s ++ t).take 2).takeWhile (· = quote) = (s.take 2).takeWhile (· = quote) := by
    rw [← List.take_takeWhile, ← List.take_takeWhile, hs.takeWhile (by simpa using hquote.symm)]
  have hlength := (extraQuotes_isPrefix quote s).length_le
  unfold extraQuotes at hlength ⊢
  dsimp only at hlength ⊢
  rw [hextra, List.drop_append_of_le_length hlength]

theorem textBody_carried (hquote : quote = '"' ∨ quote = '\'') (hs : Seam s t) :
    Carried s t (textBody lines quote s) (textBody lines quote (s ++ t)) := by
  intro body rest h
  have hrest := (textBody_closes hquote h).leaves hquote
  exact ⟨hrest.suffix, hrest.seam hs, textBody_append hquote h t⟩

theorem textAfter_carried (hquote : quote = '"' ∨ quote = '\'') (hs : Seam s t) :
    Carried s t (textAfter quote s) (textAfter quote (s ++ t)) := by
  have hne : quote ≠ '\n' := by
    rcases hquote with rfl | rfl <;> decide
  unfold textAfter
  rw [hs.isPrefixOf (by simpa using hne.symm)]
  split
  · next hp =>
    obtain ⟨s, rfl⟩ := List.isPrefixOf_iff_prefix.1 hp
    change Carried _ t (textBody true quote (dropFirstNewline s) >>= _)
      (textBody true quote (dropFirstNewline (s ++ t)) >>= _)
    intro body rest h
    obtain ⟨⟨inner, r⟩, hbody, h⟩ := bind_eq_ok.1 h
    cases h
    have hcloses := Closes.of_passes (dropFirstNewline_passes s) (textBody_closes hquote hbody)
    have hr : Leaves ([quote, quote] ++ s) r := ((hcloses.leaves hquote).cons hne).cons hne
    have hrest := hr.trans (extraQuotes_leaves hne r)
    refine ⟨hrest.suffix, hrest.seam hs, ?_⟩
    rw [dropFirstNewline_append hcloses.ne_nil, textBody_append hquote hbody t, ok_bind]
    dsimp only
    rw [extraQuotes_append hne (hr.seam hs)]
    rfl
  · exact textBody_carried hquote hs

end NuPlugin.Toml
