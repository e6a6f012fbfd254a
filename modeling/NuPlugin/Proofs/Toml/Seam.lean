import NuPlugin.Proofs.Except
import NuPlugin.Toml.Token
import Mathlib.Data.List.Basic
import Mathlib.Data.List.TakeWhile

/-!
# Seams

A document may be cut where a newline stands, at the end of the first part or in front of the
second. A reader that comes to its end within the first part does the same on the whole, since
nothing but the newline is looked at across the seam.
-/

namespace NuPlugin.Toml

variable {s t w rest : List Char}

/-- A newline stands where `s` and `t` meet. -/
def Seam (s t : List Char) : Prop := s.getLast? = some '\n' ∨ t.head? = some '\n'

namespace Seam

theorem of_append (h : Seam (w ++ s) t) (hw : w.getLast? ≠ some '\n') : Seam s t := by
  rcases h with h | h
  · left
    cases s with
    | nil =>
      rw [List.append_nil] at h
      exact absurd h hw
    | cons c s => rwa [List.getLast?_append_of_ne_nil _ (List.cons_ne_nil c s)] at h
  · exact Or.inr h

theorem of_append_ne_nil (h : Seam (w ++ s) t) (hs : s ≠ []) : Seam s t := by
  rcases h with h | h
  · exact Or.inl (by rwa [List.getLast?_append_of_ne_nil _ hs] at h)
  · exact Or.inr h

theorem tail {c : Char} (h : Seam (c :: s) t) (hc : c ≠ '\n') : Seam s t :=
  of_append (w := [c]) h (by simpa using hc)

theorem of_nil (h : Seam [] t) : ∃ t', t = '\n' :: t' := by
  rcases h with h | h
  · cases h
  · cases t with
    | nil => cases h
    | cons c t => exact ⟨t, by rw [Option.some.inj h]⟩

theorem split (h : Seam s t) (hw : '\n' ∉ w) (he : s ++ t = w ++ rest) :
    ∃ s', s = w ++ s' ∧ rest = s' ++ t := by
  rcases List.append_eq_append_iff.1 he with ⟨a, hwa, hta⟩ | ⟨s', hs, hrest⟩
  · -- Here `w` would reach past the seam, over the newline that stands there.
    cases a with
    | nil =>
      rw [List.append_nil] at hwa
      exact ⟨[], by rw [hwa, List.append_nil], hta.symm⟩
    | cons c a =>
      have hc : c ≠ '\n' := fun hc => hw (by simp [hwa, hc])
      have hs : '\n' ∉ s := fun hs => hw (by simp [hwa, hs])
      rcases h with h | h
      · exact absurd (List.mem_of_getLast? h) hs
      · rw [hta] at h
        exact absurd (Option.some.inj h) hc
  · exact ⟨s', hs, hrest⟩

theorem front (h : Seam s t) {c : Char} (hc : c ≠ '\n') (he : s ++ t = c :: rest) :
    ∃ s', s = c :: s' := by
  obtain ⟨s', hs, -⟩ := h.split (w := [c]) (by simpa using hc.symm) he
  exact ⟨s', hs⟩

theorem dropWhile (h : Seam s t) {p : Char → Bool} (hp : p '\n' = false) :
    (s ++ t).dropWhile p = s.dropWhile p ++ t := by
  rw [List.dropWhile_append]
  split
  · next hs =>
    have hall := List.dropWhile_eq_nil_iff.1 (List.isEmpty_iff.1 hs)
    rcases h with h | h
    · have hn := hall '\n' (List.mem_of_getLast? h)
      rw [hp] at hn
      cases hn
    · cases t with
      | nil => cases h
      | cons c t =>
        rw [List.isEmpty_iff.1 hs, List.nil_append,
          List.dropWhile_cons_of_neg (by rw [Option.some.inj h, hp]; exact Bool.false_ne_true)]
  · rfl

theorem takeWhile (h : Seam s t) {p : Char → Bool} (hp : p '\n' = false) :
    (s ++ t).takeWhile p = s.takeWhile p := by
  have hsplit := List.takeWhile_append_dropWhile (p := p) (l := s ++ t)
  rw [h.dropWhile hp] at hsplit
  have hs := List.takeWhile_append_dropWhile (p := p) (l := s)
  conv at hsplit => rhs; rw [← hs]
  rw [← List.append_assoc] at hsplit
  exact List.append_cancel_right (List.append_cancel_right hsplit)

theorem isPrefixOf (h : Seam s t) (hw : '\n' ∉ w) : w.isPrefixOf (s ++ t) = w.isPrefixOf s := by
  rw [Bool.eq_iff_iff, List.isPrefixOf_iff_prefix, List.isPrefixOf_iff_prefix]
  constructor
  · rintro ⟨rest, he⟩
    obtain ⟨s', hs, -⟩ := h.split hw he.symm
    exact ⟨s', hs.symm⟩
  · rintro ⟨s', rfl⟩
    exact ⟨s' ++ t, by rw [List.append_assoc]⟩

end Seam

/-! ## What is left -/

/-- `rest` is left of `s` after a part that does not end with a newline. -/
def Leaves (s rest : List Char) : Prop := ∃ w, s = w ++ rest ∧ w.getLast? ≠ some '\n'

namespace Leaves

theorem cons {c : Char} (hc : c ≠ '\n') (h : Leaves s rest) : Leaves (c :: s) rest := by
  obtain ⟨w, rfl, hw⟩ := h
  refine ⟨c :: w, rfl, ?_⟩
  cases w with
  | nil => simpa using hc
  | cons d w => rwa [List.getLast?_cons_cons]

theorem trans {r : List Char} (h : Leaves s r) (h' : Leaves r rest) : Leaves s rest := by
  obtain ⟨w, rfl, hw⟩ := h
  obtain ⟨w', rfl, hw'⟩ := h'
  refine ⟨w ++ w', by rw [List.append_assoc], ?_⟩
  cases w' with
  | nil => rwa [List.append_nil]
  | cons c w' => rwa [List.getLast?_append_of_ne_nil _ (List.cons_ne_nil c w')]

theorem dropWhile {p : Char → Bool} (hp : p '\n' = false) (s : List Char) :
    Leaves s (s.dropWhile p) := by
  refine ⟨s.takeWhile p, List.takeWhile_append_dropWhile.symm, fun hn => ?_⟩
  have hmem := List.mem_takeWhile_imp (List.mem_of_getLast? hn)
  rw [hp] at hmem
  cases hmem

theorem length_le (h : Leaves s rest) : rest.length ≤ s.length := by
  obtain ⟨w, rfl, -⟩ := h
  rw [List.length_append]
  omega

theorem seam (h : Leaves s rest) (hs : Seam s t) : Seam rest t := by
  obtain ⟨w, rfl, hw⟩ := h
  exact hs.of_append hw

end Leaves

theorem Leaves.suffix (h : Leaves s rest) : rest <:+ s := by
  obtain ⟨w, rfl, -⟩ := h
  exact List.suffix_append w rest

/-! ## Outcomes -/

/-- Where `x` reads something from `s`, `y` reads the same from `s ++ t`, and the seam is still
ahead. -/
def Carried {α : Type} (s t : List Char) (x y : Except Fault (α × List Char)) : Prop :=
  ∀ a rest, x = .ok (a, rest) → rest <:+ s ∧ Seam rest t ∧ y = .ok (a, rest ++ t)

namespace Carried

variable {α β : Type} {x y : Except Fault (α × List Char)} {r : List Char}

theorem ok {a : α} (hrest : rest <:+ s) (hs : Seam rest t) :
    Carried s t (.ok (a, rest)) (.ok (a, rest ++ t)) := by
  intro a' rest' h
  cases h
  exact ⟨hrest, hs, rfl⟩

theorem error (e : Fault) (y : Except Fault (α × List Char)) : Carried s t (.error e) y := by
  intro a rest h
  cases h

theorem mono (hr : r <:+ s) (h : Carried r t x y) : Carried s t x y := by
  intro a rest hx
  obtain ⟨hrest, hs, hy⟩ := h a rest hx
  exact ⟨hrest.trans hr, hs, hy⟩

theorem bind {f g : α × List Char → Except Fault (β × List Char)} (h : Carried s t x y)
    (hf : ∀ a r, Seam r t → Carried r t (f (a, r)) (g (a, r ++ t))) :
    Carried s t (x >>= f) (y >>= g) := by
  intro b rest hx
  obtain ⟨⟨a, r⟩, hx, hfx⟩ := bind_eq_ok.1 hx
  obtain ⟨hr, hs, hy⟩ := h a r hx
  obtain ⟨hrest, hs', hg⟩ := hf a r hs b rest hfx
  exact ⟨hrest.trans hr, hs', by rw [hy, ok_bind, hg]⟩

end Carried

/-! ## What is passed over -/

theorem isForbidden_eq_false {c : Char} (h : 0x20 ≤ c.toNat) (h' : c.toNat ≠ 0x7F)
    (lines : Bool) : isForbidden lines c = false := by
  have hc : isControl c = false := by
    simp only [isControl, Bool.or_eq_false_iff, decide_eq_false_iff_not]
    exact ⟨by omega, h'⟩
  rw [isForbidden, hc, Bool.false_and, Bool.false_and]

theorem isForbidden_ofLine {c : Char} (h : isForbidden false c = false) (lines : Bool) :
    isForbidden lines c = false := by
  simp only [isForbidden, Bool.and_eq_false_iff] at h ⊢
  exact Or.inl (h.resolve_right (by simp))

/-- `rest` is left of `s`, and what was passed over holds no forbidden character. -/
def Passes (lines : Bool) (s rest : List Char) : Prop :=
  ∃ w, s = w ++ rest ∧ ∀ c ∈ w, isForbidden lines c = false

namespace Passes

variable {lines : Bool} {r : List Char}

theorem refl (lines : Bool) (s : List Char) : Passes lines s s := ⟨[], rfl, by simp⟩

theorem trans (h : Passes lines s r) (h' : Passes lines r rest) : Passes lines s rest := by
  obtain ⟨w, rfl, hw⟩ := h
  obtain ⟨w', rfl, hw'⟩ := h'
  exact ⟨w ++ w', by rw [List.append_assoc], fun c hc =>
    (List.mem_append.1 hc).elim (hw c) (hw' c)⟩

theorem cons {c : Char} (hc : isForbidden lines c = false) (h : Passes lines s rest) :
    Passes lines (c :: s) rest := by
  obtain ⟨w, rfl, hw⟩ := h
  exact ⟨c :: w, rfl, fun d hd => (List.mem_cons.1 hd).elim (fun he => he ▸ hc) (hw d)⟩

theorem dropWhile {p : Char → Bool} (hp : ∀ c, p c = true → isForbidden lines c = false)
    (s : List Char) : Passes lines s (s.dropWhile p) :=
  ⟨s.takeWhile p, (List.takeWhile_append_dropWhile).symm, fun c hc =>
    hp c (List.mem_takeWhile_imp hc)⟩

theorem ofLine (h : Passes false s rest) (lines : Bool) : Passes lines s rest := by
  obtain ⟨w, rfl, hw⟩ := h
  exact ⟨w, rfl, fun c hc => isForbidden_ofLine (hw c hc) lines⟩

theorem leaves (h : Passes false s rest) : Leaves s rest := by
  obtain ⟨w, rfl, hw⟩ := h
  refine ⟨w, rfl, fun hn => ?_⟩
  have hforbidden := hw '\n' (List.mem_of_getLast? hn)
  exact absurd hforbidden (by decide)

theorem suffix (h : Passes lines s rest) : rest <:+ s := by
  obtain ⟨w, rfl, -⟩ := h
  exact List.suffix_append w rest

theorem seam (h : Passes false s rest) (hs : Seam s t) : Seam rest t := h.leaves.seam hs

end Passes

/-! ## Blanks and comments -/

theorem isForbidden_space {c : Char} (h : isSpace c = true) (lines : Bool) :
    isForbidden lines c = false := by
  simp only [isSpace, Bool.or_eq_true, decide_eq_true_eq] at h
  rcases h with rfl | rfl <;> cases lines <;> decide

theorem isForbidden_spaceOrNewline {c : Char} (h : isSpaceOrNewline c = true) :
    isForbidden true c = false := by
  simp only [isSpaceOrNewline, Bool.or_eq_true, decide_eq_true_eq] at h
  rcases h with h | rfl
  · exact isForbidden_space h true
  · decide

theorem skipSpaces_passes (lines : Bool) (s : List Char) : Passes lines s (skipSpaces s) :=
  Passes.dropWhile (fun _ hc => isForbidden_space hc lines) s

theorem skipSpaces_append (h : Seam s t) : skipSpaces (s ++ t) = skipSpaces s ++ t :=
  h.dropWhile rfl

theorem skipCommentText_passes (h : skipCommentText s = .ok rest) : Passes false s rest := by
  induction s with
  | nil =>
    rw [← Except.ok.inj h]
    exact Passes.refl false []
  | cons c s ih =>
    rw [skipCommentText] at h
    split at h
    · rw [← Except.ok.inj h]
      exact Passes.refl false _
    · split at h
      · cases h
      · next hc => exact (ih h).cons (Bool.eq_false_iff.2 hc)

theorem skipCommentText_append (hs : Seam s t) (h : skipCommentText s = .ok rest) :
    skipCommentText (s ++ t) = .ok (rest ++ t) := by
  induction s with
  | nil =>
    obtain ⟨t, rfl⟩ := hs.of_nil
    rw [← Except.ok.inj h, List.nil_append, skipCommentText, if_pos rfl]
  | cons c s ih =>
    rw [skipCommentText] at h
    rw [List.cons_append, skipCommentText]
    split at h
    · next hc =>
      rw [if_pos hc, ← Except.ok.inj h]
      rfl
    · next hc =>
      rw [if_neg hc]
      split at h
      · cases h
      · next hf =>
        rw [if_neg hf]
        exact ih (hs.tail hc) h

theorem skipComment_passes (h : skipComment s = .ok rest) : Passes false s rest := by
  unfold skipComment at h
  split at h
  · exact (skipCommentText_passes h).cons (by decide)
  · rw [← Except.ok.inj h]
    exact Passes.refl false _

theorem skipComment_append (hs : Seam s t) (h : skipComment s = .ok rest) :
    skipComment (s ++ t) = .ok (rest ++ t) := by
  unfold skipComment at h
  split at h
  · exact skipCommentText_append (hs.tail (by decide)) h
  · next hhash =>
    rw [← Except.ok.inj h]
    unfold skipComment
    split
    · next rest' he =>
      cases s with
      | nil =>
        obtain ⟨t, rfl⟩ := hs.of_nil
        cases he
      | cons c s =>
        rw [List.cons_append, List.cons.injEq] at he
        exact absurd rfl (he.1 ▸ hhash s)
    · rfl

theorem skipBlanks_passes {inComment : Bool} (h : skipBlanks inComment s = .ok rest) :
    Passes true s rest := by
  induction s generalizing inComment with
  | nil =>
    rw [← Except.ok.inj h]
    exact Passes.refl true []
  | cons c s ih =>
    rw [skipBlanks] at h
    split at h
    · next hc => exact (ih h).cons (hc ▸ by decide)
    · split at h
      · split at h
        · cases h
        · next hc => exact (ih h).cons (isForbidden_ofLine (Bool.eq_false_iff.2 hc) true)
      · split at h
        · next hc => exact (ih h).cons (isForbidden_space hc true)
        · split at h
          · next hc => exact (ih h).cons (hc ▸ by decide)
          · rw [← Except.ok.inj h]
            exact Passes.refl true _

theorem skipBlanks_append {inComment : Bool} (h : skipBlanks inComment s = .ok rest)
    (hrest : rest ≠ []) (t : List Char) : skipBlanks inComment (s ++ t) = .ok (rest ++ t) := by
  induction s generalizing inComment with
  | nil => exact absurd (Except.ok.inj h).symm hrest
  | cons c s ih =>
    rw [skipBlanks] at h
    rw [List.cons_append, skipBlanks]
    split at h
    · next hc => rw [if_pos hc]; exact ih h
    · next hc =>
      rw [if_neg hc]
      split at h
      · next hi =>
        rw [if_pos hi]
        split at h
        · cases h
        · next hf => rw [if_neg hf]; exact ih h
      · next hi =>
        rw [if_neg hi]
        split at h
        · next hsp => rw [if_pos hsp]; exact ih h
        · next hsp =>
          rw [if_neg hsp]
          split at h
          · next hh => rw [if_pos hh]; exact ih h
          · next hh =>
            rw [if_neg hh, ← Except.ok.inj h]
            rfl

end NuPlugin.Toml
