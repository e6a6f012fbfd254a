import NuPlugin.Proofs.Toml.Seam
import NuPlugin.Toml.Scalar

/-!
# Numbers, dates and times across a seam

No such value holds a newline or another control character, and each reader stops at one. So what is
left of a document after the seam has no part in what stands before it.
-/

namespace NuPlugin.Toml

variable {s t w rest digits : List Char} {isDigit : Char → Bool}

/-! ## Shapes of fixed width -/

theorem newline_notMem (hw : ∀ c ∈ w, isForbidden false c = false) : '\n' ∉ w :=
  fun hn => absurd (hw _ hn) (by decide)

/-- What a reader of fixed width takes from the whole, it takes from the first part. -/
theorem Seam.map_append {f : List Char → Option (List Char)}
    (hf : ∀ {s rest}, f s = some rest → ∃ w, s = w ++ rest ∧
      (∀ c ∈ w, isForbidden false c = false) ∧ ∀ rest, f (w ++ rest) = some rest)
    (hs : Seam s t) : f (s ++ t) = (f s).map (· ++ t) := by
  cases h : f s with
  | some rest =>
    obtain ⟨w, rfl, -, hw⟩ := hf h
    rw [List.append_assoc, hw, Option.map_some]
  | none =>
    -- What was read from the whole would have been read from the first part.
    cases h' : f (s ++ t) with
    | none => rfl
    | some rest =>
      obtain ⟨w, he, hpass, hw⟩ := hf h'
      obtain ⟨s', rfl, -⟩ := hs.split (newline_notMem hpass) he
      rw [hw] at h
      cases h

theorem ne_newline {c : Char} (h : isForbidden false c = false) : c ≠ '\n' := by
  rintro rfl
  cases h

theorem isForbidden_of_isDigit {c : Char} (h : c.isDigit = true) : isForbidden false c = false := by
  simp only [Char.isDigit, Bool.and_eq_true, decide_eq_true_eq, UInt32.le_iff_toNat_le] at h
  have hlow : 48 ≤ c.toNat := h.1
  have hhigh : c.toNat ≤ 57 := h.2
  exact isForbidden_eq_false (by omega) (by omega) false

theorem ne_newline_of_isDigit {c : Char} (h : c.isDigit = true) : c ≠ '\n' :=
  ne_newline (isForbidden_of_isDigit h)

theorem isDigit_of_twoDigits? {low high : Nat} {a b : Char}
    (h : (twoDigits? low high a b).isSome) : a.isDigit ∧ b.isDigit := by
  unfold twoDigits? at h
  split at h
  · assumption
  · cases h

theorem clock?_fixed (h : clock? s = some rest) :
    ∃ w, s = w ++ rest ∧ (∀ c ∈ w, isForbidden false c = false) ∧
      ∀ rest, clock? (w ++ rest) = some rest := by
  unfold clock? at h
  split at h
  · next h1 h2 m1 m2 r =>
    split at h
    · next hc =>
      cases h
      have hh := isDigit_of_twoDigits? hc.1
      have hm := isDigit_of_twoDigits? hc.2
      refine ⟨[h1, h2, ':', m1, m2], rfl, ?_, fun r => if_pos hc⟩
      have hcolon : isForbidden false ':' = false := by decide
      simp [isForbidden_of_isDigit hh.1, isForbidden_of_isDigit hh.2,
        isForbidden_of_isDigit hm.1, isForbidden_of_isDigit hm.2, hcolon]
    · cases h
  · cases h

theorem clock?_append (hs : Seam s t) : clock? (s ++ t) = (clock? s).map (· ++ t) :=
  hs.map_append clock?_fixed

theorem clock?_passes (h : clock? s = some rest) : Passes false s rest := by
  obtain ⟨w, rfl, hw, -⟩ := clock?_fixed h
  exact ⟨w, rfl, hw⟩

theorem date?_fixed {date : Date} (h : date? s = some (date, rest)) :
    ∃ w, s = w ++ rest ∧ (∀ c ∈ w, isForbidden false c = false) ∧
      ∀ rest, date? (w ++ rest) = some (date, rest) := by
  unfold date? at h
  split at h
  · next a b c d m1 m2 e1 e2 r =>
    simp only [Option.bind_eq_bind, Option.bind_eq_some_iff, Option.pure_def,
      Option.some.injEq, Prod.mk.injEq] at h
    obtain ⟨century, hcentury, year, hyear, month, hmonth, day, hday, rfl, rfl⟩ := h
    have hab := isDigit_of_twoDigits? (Option.isSome_of_eq_some hcentury)
    have hcd := isDigit_of_twoDigits? (Option.isSome_of_eq_some hyear)
    have hm := isDigit_of_twoDigits? (Option.isSome_of_eq_some hmonth)
    have he := isDigit_of_twoDigits? (Option.isSome_of_eq_some hday)
    refine ⟨[a, b, c, d, '-', m1, m2, '-', e1, e2], rfl, ?_, fun r => ?_⟩
    · have hdash : isForbidden false '-' = false := by decide
      simp [isForbidden_of_isDigit hab.1, isForbidden_of_isDigit hab.2,
        isForbidden_of_isDigit hcd.1, isForbidden_of_isDigit hcd.2,
        isForbidden_of_isDigit hm.1, isForbidden_of_isDigit hm.2,
        isForbidden_of_isDigit he.1, isForbidden_of_isDigit he.2, hdash]
    · simp [date?, hcentury, hyear, hmonth, hday]
  · cases h

theorem date?_append (hs : Seam s t) :
    date? (s ++ t) = (date? s).map fun (date, rest) => (date, rest ++ t) := by
  cases h : date? s with
  | some dated =>
    obtain ⟨w, he, -, hw⟩ := date?_fixed h
    rw [he, List.append_assoc, hw, Option.map_some]
  | none =>
    cases h' : date? (s ++ t) with
    | none => rfl
    | some dated =>
      obtain ⟨w, he, hpass, hw⟩ := date?_fixed h'
      obtain ⟨s', rfl, -⟩ := hs.split (newline_notMem hpass) he
      rw [hw] at h
      cases h

theorem date?_passes {date : Date} (h : date? s = some (date, rest)) : Passes false s rest := by
  obtain ⟨w, rfl, hw, -⟩ := date?_fixed h
  exact ⟨w, rfl, hw⟩

theorem scalarWords_pass {word : String} (h : word ∈ scalarWords) :
    ∀ c ∈ word.toList, isForbidden false c = false := by
  have hall : scalarWords.all (fun word => word.toList.all fun c => !isForbidden false c) := by
    decide +kernel
  intro c hc
  have hc' := List.all_eq_true.1 (List.all_eq_true.1 hall word h) c hc
  rwa [Bool.not_eq_true'] at hc'

theorem prefix_of_find? {word : String}
    (h : (scalarWords.find? fun word => word.toList.isPrefixOf s) = some word) :
    word.toList <+: s :=
  List.isPrefixOf_iff_prefix.1
    (List.find?_some (p := fun word : String => word.toList.isPrefixOf s) h)

theorem skipWord?_append (hs : Seam s t) : skipWord? (s ++ t) = (skipWord? s).map (· ++ t) := by
  have hfind : (scalarWords.find? fun word => word.toList.isPrefixOf (s ++ t)) =
      scalarWords.find? fun word => word.toList.isPrefixOf s := by
    rw [← List.head?_filter, ← List.head?_filter]
    exact congrArg List.head?
      (List.filter_congr fun word hword => hs.isPrefixOf (newline_notMem (scalarWords_pass hword)))
  unfold skipWord?
  rw [hfind, Option.map_map]
  refine Option.map_congr fun word hword => ?_
  exact List.drop_append_of_le_length (prefix_of_find? hword).length_le

theorem skipWord?_passes (h : skipWord? s = some rest) : Passes false s rest := by
  obtain ⟨word, hfind, rfl⟩ := Option.map_eq_some_iff.1 h
  obtain ⟨rest, rfl⟩ := prefix_of_find? hfind
  rw [← String.length_toList, List.drop_left]
  exact ⟨word.toList, rfl, scalarWords_pass (List.mem_of_find?_eq_some hfind)⟩

/-! ## Runs of digits -/

def DigitsPass (isDigit : Char → Bool) : Prop :=
  ∀ c, isDigit c = true → isForbidden false c = false

theorem digitsPass_decimal : DigitsPass Char.isDigit := fun _ => isForbidden_of_isDigit

theorem DigitsPass.newline (h : DigitsPass isDigit) : isDigit '\n' = false := by
  cases hn : isDigit '\n' with
  | false => rfl
  | true => exact absurd (h '\n' hn) (by decide)

theorem DigitsPass.ne_newline {c : Char} (h : DigitsPass isDigit) (hc : isDigit c = true) :
    c ≠ '\n' :=
  Toml.ne_newline (h c hc)

theorem moreDigits_newline (hline : isDigit '\n' = false) (t : List Char) :
    moreDigits isDigit ('\n' :: t) = ([], '\n' :: t) := by
  cases t <;> simp [moreDigits, hline]

theorem moreDigits_append (hdigits : DigitsPass isDigit) (hs : Seam s t) :
    moreDigits isDigit (s ++ t) =
      ((moreDigits isDigit s).1, (moreDigits isDigit s).2 ++ t) := by
  induction s using moreDigits.induct isDigit with
  | case1 =>
    obtain ⟨t, rfl⟩ := hs.of_nil
    exact moreDigits_newline hdigits.newline t
  | case2 c hc =>
    obtain ⟨t, rfl⟩ := (hs.tail (hdigits.ne_newline hc)).of_nil
    simp [moreDigits, hc, moreDigits_newline hdigits.newline]
  | case3 c hc =>
    cases t with
    | nil => simp [moreDigits, hc]
    | cons d t =>
      have hd : ¬(c = '_' ∧ isDigit d) := by
        rintro ⟨rfl, hd⟩
        obtain ⟨t, ht⟩ := (hs.tail (by decide)).of_nil
        cases ht
        rw [hdigits.newline] at hd
        cases hd
      simp [moreDigits, hc, hd]
  | case4 c d s hc digits after hmore ih =>
    have hrest := ih (hs.tail (hdigits.ne_newline hc))
    rw [List.cons_append] at hrest
    simp only [List.cons_append, moreDigits, hc, if_true, hrest]
  | case5 c d s hc hcd digits after hmore ih =>
    have hrest := ih ((hs.tail (by simp [hcd.1])).tail (hdigits.ne_newline hcd.2))
    simp only [List.cons_append, moreDigits, if_neg hc, if_pos hcd, hrest]
  | case6 c d s hc hcd =>
    simp only [List.cons_append, moreDigits, if_neg hc, if_neg hcd]

theorem moreDigits_passes (hdigits : DigitsPass isDigit) (s : List Char) :
    Passes false s (moreDigits isDigit s).2 := by
  induction s using moreDigits.induct isDigit with
  | case1 => exact .refl false []
  | case2 c hc =>
    rw [moreDigits, if_pos hc]
    exact (Passes.refl false []).cons (hdigits c hc)
  | case3 c hc =>
    rw [moreDigits, if_neg hc]
    exact .refl false [c]
  | case4 c d s hc digits after hmore ih =>
    rw [moreDigits, if_pos hc]
    exact ih.cons (hdigits c hc)
  | case5 c d s hc hcd digits after hmore ih =>
    rw [moreDigits, if_neg hc, if_pos hcd]
    exact (ih.cons (hdigits d hcd.2)).cons (hcd.1 ▸ by decide)
  | case6 c d s hc hcd =>
    rw [moreDigits, if_neg hc, if_neg hcd]
    exact .refl false (c :: d :: s)

theorem isForbidden_of_between {c low high : Char} (hc : low ≤ c ∧ c ≤ high)
    (hlow : 0x20 ≤ low.toNat) (hhigh : high.toNat < 0x7F) : isForbidden false c = false := by
  have hc' : low.toNat ≤ c.toNat ∧ c.toNat ≤ high.toNat := hc
  exact isForbidden_eq_false (by omega) (by omega) false

theorem radixDigit?_digitsPass {base : Char} (h : radixDigit? base = some isDigit) :
    DigitsPass isDigit := by
  intro c hc
  unfold radixDigit? at h
  split at h
  · cases h
    simp only [Bool.or_eq_true, Bool.and_eq_true, decide_eq_true_eq] at hc
    rcases hc with (hc | hc) | hc
    · exact isForbidden_of_isDigit hc
    · exact isForbidden_of_between hc (by decide) (by decide)
    · exact isForbidden_of_between hc (by decide) (by decide)
  · cases h
    simp only [Bool.or_eq_true, decide_eq_true_eq] at hc
    rcases hc with rfl | rfl <;> decide
  · cases h
    simp only [Bool.and_eq_true, decide_eq_true_eq] at hc
    exact isForbidden_of_between hc (by decide) (by decide)
  · cases h

theorem radixDigit?_base {base : Char} (h : radixDigit? base = some isDigit) :
    isForbidden false base = false := by
  unfold radixDigit? at h
  split at h
  all_goals first | decide | cases h

theorem radixInteger?_eq_some (h : radixInteger? s = some rest) :
    ∃ base c r isDigit, s = '0' :: base :: c :: r ∧ radixDigit? base = some isDigit ∧
      isDigit c = true ∧ rest = (moreDigits isDigit r).2 := by
  unfold radixInteger? at h
  split at h
  · next base c r =>
    rw [Option.bind_eq_bind, Option.bind_eq_some_iff] at h
    obtain ⟨isDigit, hbase, h⟩ := h
    split at h
    · next hc =>
      cases h
      exact ⟨base, c, r, isDigit, rfl, hbase, hc, rfl⟩
    · cases h
  · cases h

theorem radixInteger?_of_digit {base c : Char} (hbase : radixDigit? base = some isDigit)
    (hc : isDigit c = true) (r : List Char) :
    radixInteger? ('0' :: base :: c :: r) = some (moreDigits isDigit r).2 := by
  simp [radixInteger?, hbase, hc]

theorem radixInteger?_passes (h : radixInteger? s = some rest) : Passes false s rest := by
  obtain ⟨base, c, r, isDigit, rfl, hbase, hc, rfl⟩ := radixInteger?_eq_some h
  have hdigits := radixDigit?_digitsPass hbase
  have hr := (moreDigits_passes hdigits r).cons (hdigits c hc)
  exact (hr.cons (radixDigit?_base hbase)).cons (by decide)

theorem radixInteger?_append (hs : Seam s t) :
    radixInteger? (s ++ t) = (radixInteger? s).map (· ++ t) := by
  cases h : radixInteger? s with
  | some rest =>
    obtain ⟨base, c, r, isDigit, rfl, hbase, hc, rfl⟩ := radixInteger?_eq_some h
    have hdigits := radixDigit?_digitsPass hbase
    have hbase' := ne_newline (radixDigit?_base hbase)
    have hr : Seam r t := ((hs.tail (by decide)).tail hbase').tail (hdigits.ne_newline hc)
    simp only [List.cons_append, radixInteger?_of_digit hbase hc, moreDigits_append hdigits hr,
      Option.map_some]
  | none =>
    cases h' : radixInteger? (s ++ t) with
    | none => rfl
    | some rest =>
      obtain ⟨base, c, r, isDigit, he, hbase, hc, rfl⟩ := radixInteger?_eq_some h'
      have hline : '\n' ∉ ['0', base, c] := by
        simp [(ne_newline (radixDigit?_base hbase)).symm,
          ((radixDigit?_digitsPass hbase).ne_newline hc).symm]
      obtain ⟨s', rfl, -⟩ := hs.split hline he
      have hsome := radixInteger?_of_digit hbase hc s'
      change radixInteger? ('0' :: base :: c :: s') = none at h
      rw [hsome] at h
      cases h

theorem digits?_eq_some (h : digits? s = some (digits, rest)) :
    ∃ c r, s = c :: r ∧ c.isDigit = true ∧ digits = c :: (moreDigits Char.isDigit r).1 ∧
      rest = (moreDigits Char.isDigit r).2 := by
  cases s with
  | nil => cases h
  | cons c r =>
    rw [digits?] at h
    split at h
    · next hc =>
      cases h
      exact ⟨c, r, rfl, hc, rfl, rfl⟩
    · cases h

theorem digits?_passes (h : digits? s = some (digits, rest)) : Passes false s rest := by
  obtain ⟨c, r, rfl, hc, -, rfl⟩ := digits?_eq_some h
  exact (moreDigits_passes digitsPass_decimal r).cons (isForbidden_of_isDigit hc)

theorem digits?_append (hs : Seam s t) :
    digits? (s ++ t) = (digits? s).map fun (digits, rest) => (digits, rest ++ t) := by
  cases s with
  | nil =>
    obtain ⟨t, rfl⟩ := hs.of_nil
    rfl
  | cons c s =>
    rw [List.cons_append, digits?, digits?]
    split
    · next hc =>
      have hmore := moreDigits_append digitsPass_decimal (hs.tail (ne_newline_of_isDigit hc))
      simp only [hmore, Option.map_some]
    · rfl

/-! ## Decimal numbers -/

theorem skipSign_passes (s : List Char) : Passes false s (skipSign s) := by
  unfold skipSign
  split
  · exact (Passes.refl false _).cons (by decide)
  · exact (Passes.refl false _).cons (by decide)
  · exact .refl false s

theorem skipSign_append (hs : Seam s t) : skipSign (s ++ t) = skipSign s ++ t := by
  cases s with
  | nil =>
    obtain ⟨t, rfl⟩ := hs.of_nil
    rfl
  | cons c s =>
    by_cases hplus : c = '+'
    · subst hplus
      rfl
    · by_cases hminus : c = '-'
      · subst hminus
        rfl
      · simp [skipSign, hplus, hminus]

theorem wholePart?_passes (h : wholePart? s = some (digits, rest)) : Passes false s rest := by
  unfold wholePart? at h
  split at h
  · cases h
    exact (Passes.refl false _).cons (by decide)
  · exact digits?_passes h

theorem wholePart?_append (hs : Seam s t) :
    wholePart? (s ++ t) = (wholePart? s).map fun (digits, rest) => (digits, rest ++ t) := by
  cases s with
  | nil =>
    obtain ⟨t, rfl⟩ := hs.of_nil
    rfl
  | cons c s =>
    by_cases hzero : c = '0'
    · subst hzero
      rfl
    · have hwhole : ∀ r, wholePart? (c :: r) = digits? (c :: r) := fun r => by
        simp [wholePart?, hzero]
      rw [List.cons_append, hwhole, hwhole, ← List.cons_append, digits?_append hs]

theorem point?_passes (h : point? s = some rest) : Passes false s rest := by
  unfold point? at h
  split at h
  · obtain ⟨⟨digits, r⟩, hdigits, rfl⟩ := Option.map_eq_some_iff.1 h
    exact (digits?_passes hdigits).cons (by decide)
  · cases h

theorem point?_append (hs : Seam s t) : point? (s ++ t) = (point? s).map (· ++ t) := by
  cases s with
  | nil =>
    obtain ⟨t, rfl⟩ := hs.of_nil
    rfl
  | cons c s =>
    by_cases hpoint : c = '.'
    · subst hpoint
      rw [List.cons_append, point?, point?, digits?_append (hs.tail (by decide)), Option.map_map,
        Option.map_map]
      rfl
    · simp [point?, hpoint]

theorem exponent?_passes (h : exponent? s = some rest) : Passes false s rest := by
  unfold exponent? at h
  split at h
  · next c r =>
    split at h
    · next hc =>
      obtain ⟨⟨digits, r'⟩, hdigits, rfl⟩ := Option.map_eq_some_iff.1 h
      refine ((skipSign_passes r).trans (digits?_passes hdigits)).cons ?_
      rcases hc with rfl | rfl <;> decide
    · cases h
  · cases h

theorem exponent?_append (hs : Seam s t) : exponent? (s ++ t) = (exponent? s).map (· ++ t) := by
  cases s with
  | nil =>
    obtain ⟨t, rfl⟩ := hs.of_nil
    rfl
  | cons c s =>
    rw [List.cons_append, exponent?, exponent?]
    split
    · next hc =>
      have hs' : Seam s t := hs.tail (by rcases hc with rfl | rfl <;> decide)
      rw [skipSign_append hs', digits?_append ((skipSign_passes s).seam hs'), Option.map_map,
        Option.map_map]
      rfl
    · rfl

theorem point?_getD_passes (s : List Char) : Passes false s ((point? s).getD s) := by
  cases h : point? s with
  | none => exact .refl false s
  | some rest => exact point?_passes h

theorem decimal?_passes (h : decimal? s = some (.ok rest)) : Passes false s rest := by
  obtain ⟨⟨digits, r⟩, hwhole, h⟩ := Option.map_eq_some_iff.1 h
  have hr := (skipSign_passes s).trans (wholePart?_passes hwhole)
  dsimp only at h
  split at h
  · split at h
    · cases h
    · cases h
      exact hr
  · next hpoint hexponent =>
    cases h
    exact hr.trans (point?_passes hpoint)
  · next hexponent =>
    cases h
    exact (hr.trans (point?_getD_passes r)).trans (exponent?_passes hexponent)

theorem decimal?_append (hs : Seam s t) :
    decimal? (s ++ t) = (decimal? s).map (Except.map (· ++ t)) := by
  have hsign := (skipSign_passes s).seam hs
  unfold decimal?
  rw [skipSign_append hs, wholePart?_append hsign, Option.map_map, Option.map_map]
  refine Option.map_congr fun ⟨digits, r⟩ hwhole => ?_
  have hr := (wholePart?_passes hwhole).seam hsign
  have hpoint : (point? (r ++ t)).getD (r ++ t) = (point? r).getD r ++ t := by
    rw [point?_append hr]
    cases point? r <;> rfl
  simp only [Function.comp_apply]
  rw [hpoint, point?_append hr, exponent?_append ((point?_getD_passes r).seam hr)]
  cases exponent? ((point? r).getD r) with
  | some rest => cases point? r <;> rfl
  | none =>
    cases point? r with
    | some rest => rfl
    | none =>
      dsimp only [Option.map]
      split <;> rfl

/-! ## Times of day -/

theorem skipFraction_passes (s : List Char) : Passes false s (skipFraction s) := by
  unfold skipFraction
  split
  · next c r =>
    split
    · next hc =>
      have hr := (Passes.dropWhile digitsPass_decimal r).cons (isForbidden_of_isDigit hc)
      exact hr.cons (by decide)
    · exact .refl false _
  · exact .refl false s

theorem skipFraction_append (hs : Seam s t) : skipFraction (s ++ t) = skipFraction s ++ t := by
  rcases s with _ | ⟨c, _ | ⟨d, s⟩⟩
  · obtain ⟨t, rfl⟩ := hs.of_nil
    rfl
  · by_cases hpoint : c = '.'
    · subst hpoint
      obtain ⟨t, rfl⟩ := (hs.tail (by decide)).of_nil
      rfl
    · simp [skipFraction, hpoint]
  · by_cases hpoint : c = '.'
    · subst hpoint
      rw [List.cons_append, List.cons_append, skipFraction, skipFraction]
      split
      · next hd =>
        exact ((hs.tail (by decide)).tail (ne_newline_of_isDigit hd)).dropWhile rfl
      · rfl
    · simp [skipFraction, hpoint]

theorem time?_eq_some (h : time? s = some rest) :
    ∃ c d r, clock? s = some (':' :: c :: d :: r) ∧ (twoDigits? 0 59 c d).isSome ∧
      rest = skipFraction r := by
  unfold time? at h
  split at h
  · next c d r hclock =>
    split at h
    · next hcd =>
      cases h
      exact ⟨c, d, r, hclock, hcd, rfl⟩
    · cases h
  · cases h

theorem time?_of_clock? {c d : Char} {r : List Char} (h : clock? s = some (':' :: c :: d :: r))
    (hcd : (twoDigits? 0 59 c d).isSome) : time? s = some (skipFraction r) := by
  simp [time?, h, hcd]

theorem seconds_pass {c d : Char} (h : (twoDigits? 0 59 c d).isSome) :
    ∀ e ∈ [':', c, d], isForbidden false e = false := by
  have hcd := isDigit_of_twoDigits? h
  have hcolon : isForbidden false ':' = false := by decide
  simp [isForbidden_of_isDigit hcd.1, isForbidden_of_isDigit hcd.2, hcolon]

theorem time?_passes (h : time? s = some rest) : Passes false s rest := by
  obtain ⟨c, d, r, hclock, hcd, rfl⟩ := time?_eq_some h
  have hr : Passes false ([':', c, d] ++ r) r := ⟨_, rfl, seconds_pass hcd⟩
  exact ((clock?_passes hclock).trans hr).trans (skipFraction_passes r)

theorem time?_append (hs : Seam s t) : time? (s ++ t) = (time? s).map (· ++ t) := by
  cases h : time? s with
  | some rest =>
    obtain ⟨c, d, r, hclock, hcd, rfl⟩ := time?_eq_some h
    have hr : Passes false ([':', c, d] ++ r) r := ⟨_, rfl, seconds_pass hcd⟩
    have hwhole : clock? (s ++ t) = some (':' :: c :: d :: (r ++ t)) := by
      rw [clock?_append hs, hclock]
      rfl
    rw [time?_of_clock? hwhole hcd,
      skipFraction_append (((clock?_passes hclock).trans hr).seam hs), Option.map_some]
  | none =>
    cases h' : time? (s ++ t) with
    | none => rfl
    | some rest =>
      obtain ⟨c, d, r, hclock, hcd, rfl⟩ := time?_eq_some h'
      rw [clock?_append hs] at hclock
      obtain ⟨r', hclock', he⟩ := Option.map_eq_some_iff.1 hclock
      obtain ⟨r, rfl, -⟩ :=
        ((clock?_passes hclock').seam hs).split (w := [':', c, d])
          (newline_notMem (seconds_pass hcd)) he
      rw [time?_of_clock? hclock' hcd] at h
      cases h

theorem skipOffset_passes (s : List Char) : Passes false s (skipOffset s) := by
  cases s with
  | nil => exact .refl false []
  | cons c s =>
    rw [skipOffset]
    split
    · next hc =>
      exact (Passes.refl false s).cons (by rcases hc with rfl | rfl <;> decide)
    · split
      · next hc =>
        cases h : clock? s with
        | none => exact .refl false _
        | some rest =>
          exact (clock?_passes h).cons (by rcases hc with rfl | rfl <;> decide)
      · exact .refl false _

theorem skipOffset_append (hs : Seam s t) : skipOffset (s ++ t) = skipOffset s ++ t := by
  cases s with
  | nil =>
    obtain ⟨t, rfl⟩ := hs.of_nil
    rfl
  | cons c s =>
    rw [List.cons_append, skipOffset, skipOffset]
    split
    · rfl
    · split
      · next hc =>
        rw [clock?_append (hs.tail (by rcases hc with rfl | rfl <;> decide))]
        cases clock? s <;> rfl
      · rfl

theorem skipTimeOfDay_passes (s : List Char) : Passes false s (skipTimeOfDay s) := by
  cases s with
  | nil => exact .refl false []
  | cons c s =>
    rw [skipTimeOfDay]
    split
    · next hc =>
      cases h : time? s with
      | none => exact .refl false _
      | some rest =>
        refine ((time?_passes h).trans (skipOffset_passes rest)).cons ?_
        rcases hc with rfl | rfl | rfl <;> decide
    · exact .refl false _

theorem skipTimeOfDay_append (hs : Seam s t) :
    skipTimeOfDay (s ++ t) = skipTimeOfDay s ++ t := by
  cases s with
  | nil =>
    obtain ⟨t, rfl⟩ := hs.of_nil
    rfl
  | cons c s =>
    rw [List.cons_append, skipTimeOfDay, skipTimeOfDay]
    split
    · next hc =>
      have hs' : Seam s t := hs.tail (by rcases hc with rfl | rfl | rfl <;> decide)
      rw [time?_append hs']
      cases h : time? s with
      | none => rfl
      | some rest =>
        exact skipOffset_append ((time?_passes h).seam hs')
    · rfl

/-! ## All scalars -/

theorem skipScalar_passes (h : skipScalar s = .ok rest) : Passes false s rest := by
  unfold skipScalar at h
  split at h
  · next date r hdate =>
    split at h
    · cases h
      exact (date?_passes hdate).trans (skipTimeOfDay_passes r)
    · cases h
  · split at h
    · next htime =>
      cases h
      exact time?_passes htime
    · split at h
      · next hradix =>
        cases h
        exact radixInteger?_passes hradix
      · split at h
        · next outcome hdecimal =>
          rw [h] at hdecimal
          exact decimal?_passes hdecimal
        · split at h
          · next hword =>
            cases h
            exact skipWord?_passes hword
          · cases h

theorem skipScalar_append (hs : Seam s t) (h : skipScalar s = .ok rest) :
    skipScalar (s ++ t) = .ok (rest ++ t) := by
  unfold skipScalar at h ⊢
  rw [date?_append hs, time?_append hs, radixInteger?_append hs, decimal?_append hs,
    skipWord?_append hs]
  rcases hdate : date? s with _ | ⟨date, r⟩
  · rcases htime : time? s with _ | r
    · rcases hradix : radixInteger? s with _ | r
      · rcases hdecimal : decimal? s with _ | outcome
        · rcases hword : skipWord? s with _ | r
          · simp [hdate, htime, hradix, hdecimal, hword] at h
          · simp only [hdate, htime, hradix, hdecimal, hword] at h
            cases h
            rfl
        · simp only [hdate, htime, hradix, hdecimal] at h
          rw [h]
          rfl
      · simp only [hdate, htime, hradix] at h
        cases h
        rfl
    · simp only [hdate, htime] at h
      cases h
      rfl
  · simp only [hdate, Option.map_some] at h ⊢
    split at h
    · next hvalid =>
      cases h
      rw [if_pos hvalid, skipTimeOfDay_append ((date?_passes hdate).seam hs)]
    · cases h

end NuPlugin.Toml
