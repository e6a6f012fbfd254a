import NuPlugin.Proofs.Toml.Document

/-!
# Faults

A reader finds fault with nothing but what it was given: a malformed piece has its place there, and
an integer that is too long has its digits there. So every fault of a document lies in the document,
and every number of digits above the limit is one that a document can be refused for.
-/

namespace NuPlugin.Toml

variable {s r rest place : List Char} {digits : Nat}

/-! ## Runs of digits -/

/-- So many decimal digits stand in `s` one after the other, with underscores between them at
most. -/
def HoldsRun (digits : Nat) (s : List Char) : Prop :=
  ∃ run, run <:+: s ∧ (∀ c ∈ run, c.isDigit = true ∨ c = '_') ∧ run.countP Char.isDigit = digits

theorem HoldsRun.of_suffix (h : HoldsRun digits r) (hr : r <:+ s) : HoldsRun digits s := by
  obtain ⟨run, hrun, h⟩ := h
  exact ⟨run, hrun.trans hr.isInfix, h⟩

theorem moreDigits_run (s : List Char) :
    ∃ run, s = run ++ (moreDigits Char.isDigit s).2 ∧ (∀ c ∈ run, c.isDigit = true ∨ c = '_') ∧
      run.countP Char.isDigit = (moreDigits Char.isDigit s).1.length := by
  fun_induction moreDigits Char.isDigit s with
  | case1 => exact ⟨[], rfl, by simp, rfl⟩
  | case2 c hc => exact ⟨[c], rfl, by simp [hc], by simp [hc]⟩
  | case3 c hc => exact ⟨[], rfl, by simp, rfl⟩
  | case4 c d rest hc digits after hmore ih =>
    obtain ⟨run, he, hrun, hcount⟩ := ih
    rw [hmore] at he hcount
    exact ⟨c :: run, by rw [he]; rfl, by simpa [hc] using hrun, by simp [hc, hcount]⟩
  | case5 c d rest hc hd digits after hmore ih =>
    obtain ⟨run, he, hrun, hcount⟩ := ih
    rw [hmore] at he hcount
    obtain ⟨rfl, hd⟩ := hd
    exact ⟨'_' :: d :: run, by rw [he]; rfl, by simpa [hd] using hrun,
      by simp [hc, hd, hcount]⟩
  | case6 c d rest hc hd => exact ⟨[], rfl, by simp, rfl⟩

theorem holdsRun_of_digits? {ds : List Char} (h : digits? s = some (ds, rest)) :
    HoldsRun ds.length s := by
  obtain ⟨c, r, rfl, hc, rfl, -⟩ := digits?_eq_some h
  obtain ⟨run, he, hrun, hcount⟩ := moreDigits_run r
  refine ⟨c :: run, ?_, by simpa [hc] using hrun, by simp [hc, hcount]⟩
  rw [he]
  exact (List.prefix_append (c :: run) _).isInfix

theorem holdsRun_of_wholePart? {ds : List Char} (h : wholePart? s = some (ds, rest)) :
    HoldsRun ds.length s := by
  unfold wholePart? at h
  split at h
  · cases h
    exact ⟨['0'], (List.prefix_append ['0'] _).isInfix, by simp, rfl⟩
  · exact holdsRun_of_digits? h

/-! ## Where faults lie -/

/-- Something is malformed at a place in `s`, or the digits of an integer stand in `s`, and they are
too many. -/
def Fault.LiesIn (s : List Char) : Fault → Prop
  | .malformed _ place => place <:+ s
  | .integerTooLong digits => Text.maxDigits < digits ∧ HoldsRun digits s

theorem Fault.LiesIn.mono {f : Fault} (h : f.LiesIn r) (hr : r <:+ s) : f.LiesIn s := by
  cases f with
  | malformed cause place => exact List.IsSuffix.trans h hr
  | integerTooLong digits => exact ⟨h.1, h.2.of_suffix hr⟩

def FaultsIn {α : Type} (s : List Char) (x : Except Fault α) : Prop :=
  ∀ f, x = .error f → f.LiesIn s

namespace FaultsIn

variable {α β : Type} {x : Except Fault α}

theorem ok (s : List Char) (a : α) : FaultsIn s (.ok a : Except Fault α) := nofun

theorem malformed (cause : Cause) (h : place <:+ s) :
    FaultsIn s (.error (.malformed cause place) : Except Fault α) := by
  rintro f ⟨⟩
  exact h

theorem here (s : List Char) (cause : Cause) :
    FaultsIn s (.error (.malformed cause s) : Except Fault α) :=
  malformed cause List.suffix_rfl

theorem mono (h : FaultsIn r x) (hr : r <:+ s) : FaultsIn s x := fun f hx => (h f hx).mono hr

theorem bind {f : α → Except Fault β} (hx : FaultsIn s x)
    (hf : ∀ a, x = .ok a → FaultsIn s (f a)) : FaultsIn s (x >>= f) := by
  intro fault h
  rcases bind_eq_error.1 h with h | ⟨a, ha, h⟩
  · exact hx fault h
  · exact hf a ha fault h

theorem bind_ok {f : α → β} (hx : FaultsIn s x) : FaultsIn s (x >>= fun a => .ok (f a)) :=
  hx.bind fun a _ => .ok s (f a)

theorem located (h : place <:+ s) (x : Except Cause α) : FaultsIn s (located place x) := by
  cases x with
  | ok a => exact .ok s a
  | error cause => exact .malformed cause h

end FaultsIn

/-! ## Texts and keys -/

theorem skipCommentText_faults (s : List Char) : FaultsIn s (skipCommentText s) := by
  induction s with
  | nil => exact .ok [] []
  | cons c s ih =>
    rw [skipCommentText]
    split
    · exact .ok _ _
    · split
      · exact .here _ _
      · exact ih.mono (List.suffix_cons c s)

theorem skipComment_faults (s : List Char) : FaultsIn s (skipComment s) := by
  unfold skipComment
  split
  · exact (skipCommentText_faults _).mono (List.suffix_cons _ _)
  · exact .ok _ _

theorem skipBlanks_faults (inComment : Bool) (s : List Char) :
    FaultsIn s (skipBlanks inComment s) := by
  induction s generalizing inComment with
  | nil => exact .ok [] []
  | cons c s ih =>
    have hrest : ∀ inComment, FaultsIn (c :: s) (skipBlanks inComment s) := fun inComment =>
      (ih inComment).mono (List.suffix_cons c s)
    rw [skipBlanks]
    split
    · exact hrest false
    · split
      · split
        · exact .here _ _
        · exact hrest true
      · split
        · exact hrest false
        · split
          · exact hrest true
          · exact .ok _ _

theorem literal_faults (lines : Bool) (s : List Char) : FaultsIn s (literal lines s) := by
  unfold literal
  dsimp only
  split
  · exact .malformed _ List.nil_suffix
  · split
    · exact .malformed _ (List.dropWhile_suffix _)
    · exact .ok _ _

theorem hexChar_faults (width : Nat) (s : List Char) : FaultsIn s (hexChar width s) := by
  unfold hexChar
  dsimp only
  split
  · exact .here _ _
  · split
    · exact .ok _ _
    · exact .malformed _ (List.drop_suffix width s)

theorem escape_faults (lines : Bool) (s : List Char) : FaultsIn s (escape lines s) := by
  cases s with
  | nil => exact .here _ _
  | cons c s =>
    rw [escape]
    split
    · exact .ok _ _
    · split
      · split
        · exact .ok _ _
        · next d after hskip =>
          have hplace := hskip ▸ skipSpaces_suffix s
          split
          · exact .ok _ _
          · exact .malformed _ (hplace.trans (List.suffix_cons c s))
      · split
        · exact (hexChar_faults 4 s).mono (List.suffix_cons c s)
        · split
          · exact (hexChar_faults 8 s).mono (List.suffix_cons c s)
          · split
            · exact .ok _ _
            · exact .malformed _ (List.suffix_cons c s)

theorem basicIn_faults (lines : Bool) (steps : Nat) (s : List Char) :
    FaultsIn s (basicIn lines steps s) := by
  induction steps generalizing s with
  | zero =>
    cases s with
    | nil => exact .here _ _
    | cons c s => exact .here _ _
  | succ steps ih =>
    cases s with
    | nil => exact .here _ _
    | cons c s =>
      rw [basicIn]
      dsimp only
      split
      · exact .ok _ _
      · split
        · have hescape := (escape_faults lines s).mono (List.suffix_cons c s)
          refine hescape.bind fun read h => ?_
          obtain ⟨escaped, r⟩ := read
          have hr := (escape_passes h).suffix.trans (List.suffix_cons c s)
          exact ((ih r).mono hr).bind_ok
        · split
          · exact .here _ _
          · exact ((ih s).mono (List.suffix_cons c s)).bind_ok

theorem textBody_faults (lines : Bool) (quote : Char) (s : List Char) :
    FaultsIn s (textBody lines quote s) := by
  unfold textBody
  split
  · exact literal_faults lines s
  · exact basicIn_faults lines s.length s

theorem textAfter_faults (quote : Char) (s : List Char) : FaultsIn s (textAfter quote s) := by
  unfold textAfter
  split
  · have hr : dropFirstNewline (s.drop 2) <:+ s :=
      (dropFirstNewline_passes _).suffix.trans (List.drop_suffix 2 s)
    exact ((textBody_faults true quote _).mono hr).bind_ok
  · exact textBody_faults false quote s

namespace Key

theorem part_faults (s : List Char) : FaultsIn s (part s) := by
  cases s with
  | nil => exact .here _ _
  | cons c s =>
    rw [part]
    split
    · exact .ok _ _
    · split
      · exact ((textBody_faults false c s).mono (List.suffix_cons c s)).bind_ok
      · exact .here _ _

theorem part_suffix {name : String} (h : part s = .ok (name, rest)) : rest <:+ s :=
  (part_carried (t := ['\n']) (Or.inr rfl) name rest h).1

theorem readIn_faults (parts : Nat) (s : List Char) : FaultsIn s (readIn parts s) := by
  induction parts generalizing s with
  | zero => exact .here _ _
  | succ parts ih =>
    rw [readIn]
    refine (part_faults s).bind fun read h => ?_
    obtain ⟨name, r⟩ := read
    have hr := (skipSpaces_suffix r).trans (part_suffix h)
    dsimp only
    split
    · next r' hdot =>
      rw [hdot] at hr
      have hr' := (skipSpaces_suffix r').trans ((List.suffix_cons '.' r').trans hr)
      exact ((ih _).mono hr').bind_ok
    · exact .ok _ _

theorem read_faults (s : List Char) : FaultsIn s (read s) := readIn_faults _ s

theorem read_suffix {k : Key} (h : read s = .ok (k, rest)) : rest <:+ s :=
  (read_carried (t := ['\n']) (Or.inr rfl) k rest h).1

end Key

/-! ## Values -/

theorem decimal?_faults (s : List Char) {outcome : Except Fault (List Char)}
    (h : decimal? s = some outcome) : FaultsIn s outcome := by
  obtain ⟨⟨ds, r⟩, hwhole, rfl⟩ := Option.map_eq_some_iff.1 h
  dsimp only
  split
  · split
    · next hlong =>
      intro digits he
      cases he
      exact ⟨hlong, (holdsRun_of_wholePart? hwhole).of_suffix (skipSign_passes s).suffix⟩
    · exact .ok _ _
  · exact .ok _ _
  · exact .ok _ _

theorem skipScalar_faults (s : List Char) : FaultsIn s (skipScalar s) := by
  unfold skipScalar
  split
  · split
    · exact .ok _ _
    · exact .here _ _
  · split
    · exact .ok _ _
    · split
      · exact .ok _ _
      · split
        · next outcome hdecimal => exact decimal?_faults s hdecimal
        · split
          · exact .ok _ _
          · exact .here _ _

/-- A reader of parts that takes them from the front and blames what is left for their length. -/
structure ItemsFault (item : ValueReader) : Prop where
  suffix : ∀ {s v rest}, item s = .ok (v, rest) → rest <:+ s
  faults : ∀ s, FaultsIn s (item s)

section

variable {item : ValueReader} (hitem : ItemsFault item)

include hitem

theorem itemsIn_faults (items : Nat) (s : List Char) : FaultsIn s (itemsIn item items s) := by
  induction items generalizing s with
  | zero => exact .here _ _
  | succ items ih =>
    rw [itemsIn]
    refine (hitem.faults s).bind fun read h => .mono ?_ (hitem.suffix h)
    obtain ⟨v, r⟩ := read
    refine (skipBlanks_faults false r).bind fun r' h => .mono ?_ (skipBlanks_passes h).suffix
    split
    · exact .ok _ _
    · next r' =>
      refine .mono ?_ (List.suffix_cons ',' r')
      refine (skipBlanks_faults false r').bind fun r'' h => .mono ?_ (skipBlanks_passes h).suffix
      split
      · exact .ok _ _
      · exact (ih _).bind_ok
    · exact .here _ _

theorem arrayAfter_faults (s : List Char) : FaultsIn s (arrayAfter item s) := by
  refine (skipBlanks_faults false s).bind fun r h => .mono ?_ (skipBlanks_passes h).suffix
  split
  · exact .ok _ _
  · exact (itemsIn_faults hitem _ r).bind_ok

theorem pair_faults (s : List Char) : FaultsIn s (pair item s) := by
  refine (Key.read_faults s).bind fun read h => .mono ?_ (Key.read_suffix h)
  obtain ⟨k, r⟩ := read
  dsimp only
  split
  · next r =>
    have hr := (skipSpaces_suffix r).trans (List.suffix_cons '=' r)
    exact ((hitem.faults _).mono hr).bind_ok
  · exact .here _ _

theorem pair_suffix {kv : Key × Value} (h : pair item s = .ok (kv, rest)) : rest <:+ s := by
  obtain ⟨⟨k, r⟩, hkey, h⟩ := bind_eq_ok.1 h
  have hr := Key.read_suffix hkey
  dsimp only at h
  split at h
  · next r' =>
    obtain ⟨⟨v, r''⟩, hv, h⟩ := bind_eq_ok.1 h
    cases h
    have hrest := (hitem.suffix hv).trans (skipSpaces_suffix r')
    exact (hrest.trans (List.suffix_cons '=' r')).trans hr
  · cases h

theorem pairsIn_faults (pairs : Nat) (m : Marks) (t : Table) (s : List Char) :
    FaultsIn s (pairsIn item pairs m t s) := by
  induction pairs generalizing m t s with
  | zero => exact .here _ _
  | succ pairs ih =>
    rw [pairsIn]
    refine (pair_faults hitem s).bind fun read h => .mono ?_ (pair_suffix hitem h)
    obtain ⟨⟨k, v⟩, r⟩ := read
    refine (FaultsIn.located List.suffix_rfl _).bind fun t _ => ?_
    refine .mono ?_ (skipSpaces_suffix r)
    split
    · exact .ok _ _
    · next r' he =>
      rw [he]
      exact (ih _ t _).mono ((skipSpaces_suffix r').trans (List.suffix_cons ',' r'))
    · exact .here _ _

theorem inlineTableAfter_faults (s : List Char) : FaultsIn s (inlineTableAfter item s) := by
  unfold inlineTableAfter
  refine .mono ?_ (skipSpaces_suffix s)
  split
  · exact .ok _ _
  · exact (pairsIn_faults hitem _ .none [] _).bind_ok

end

namespace Value

theorem readIn_suffix {depth : Nat} {v : Value} (h : readIn depth s = .ok (v, rest)) :
    rest <:+ s :=
  (readIn_carried (t := ['\n']) (Nat.le_refl depth) (Or.inr rfl) v rest h).1

theorem readIn_faults (depth : Nat) (s : List Char) : FaultsIn s (readIn depth s) := by
  induction depth generalizing s with
  | zero => exact .here _ _
  | succ depth ih =>
    have hitem : ItemsFault (readIn depth) := ⟨readIn_suffix, ih⟩
    cases s with
    | nil => exact .here _ _
    | cons c s =>
      have hs := List.suffix_cons c s
      rw [readIn]
      dsimp only
      split
      · exact ((textAfter_faults c s).mono hs).bind_ok
      · split
        · exact (arrayAfter_faults hitem s).mono hs
        · split
          · exact (inlineTableAfter_faults hitem s).mono hs
          · exact (skipScalar_faults (c :: s)).bind_ok

theorem itemsFault_read : ItemsFault read := ⟨readIn_suffix, fun s => readIn_faults _ s⟩

end Value

/-! ## Documents -/

namespace Draft

theorem pairStatement_faults (d : Draft) (s : List Char) : FaultsIn s (d.pairStatement s) := by
  refine (pair_faults Value.itemsFault_read s).bind fun read h => ?_
  exact (FaultsIn.located (pair_suffix Value.itemsFault_read h) _).bind_ok

theorem tableHeader_faults (d : Draft) (s : List Char) : FaultsIn s (d.tableHeader s) := by
  have hskip := skipSpaces_suffix s
  refine ((Key.read_faults _).mono hskip).bind fun read h =>
    .mono ?_ ((Key.read_suffix h).trans hskip)
  refine (FaultsIn.located List.suffix_rfl _).bind fun d _ => ?_
  split
  · exact .ok _ _
  · exact .here _ _

theorem elementHeader_faults (d : Draft) (s : List Char) : FaultsIn s (d.elementHeader s) := by
  have hskip := skipSpaces_suffix s
  refine ((Key.read_faults _).mono hskip).bind fun read h =>
    .mono ?_ ((Key.read_suffix h).trans hskip)
  refine (FaultsIn.located List.suffix_rfl _).bind fun d _ => ?_
  split
  · exact .ok _ _
  · exact .here _ _

theorem statement_faults (d : Draft) (s : List Char) : FaultsIn s (d.statement s) := by
  unfold statement
  split
  · next s => exact (d.settle.elementHeader_faults s).mono (List.suffix_append ['[', '['] s)
  · next s _ => exact (d.settle.tableHeader_faults s).mono (List.suffix_cons '[' s)
  · exact .ok _ _
  · split
    · exact d.pairStatement_faults _
    · exact .here _ _
  · exact .here _ _

theorem lineEnd_faults (s : List Char) : FaultsIn s (lineEnd s) := by
  have hskip := skipSpaces_suffix s
  refine ((skipComment_faults _).mono hskip).bind fun r h =>
    .mono ?_ ((skipComment_passes h).suffix.trans hskip)
  split
  · exact .ok _ _
  · exact .ok _ _
  · exact .here _ _

theorem readIn_faults (lines : Nat) (d : Draft) (s : List Char) :
    FaultsIn s (readIn lines d s) := by
  induction lines generalizing d s with
  | zero => exact .ok s d
  | succ lines ih =>
    rw [readIn]
    refine .mono ?_ (skipSpaces_suffix s)
    split
    · exact .ok _ _
    · next r he => exact (ih d r).mono (he ▸ List.suffix_cons '\n' r)
    · refine (d.statement_faults _).bind fun read h => .mono ?_ (statement_suffix h)
      obtain ⟨d', r⟩ := read
      refine (lineEnd_faults r).bind fun r' h => .mono (ih d' r') (lineEnd_suffix h)

end Draft

theorem readDocument_faults (s : List Char) : FaultsIn s (readDocument s) :=
  (Draft.readIn_faults _ .empty s).bind_ok

/-! ## Integers that are too long -/

def ones (k : Nat) : List Char := List.replicate k '1'

theorem moreDigits_ones (k : Nat) : moreDigits Char.isDigit (ones k) = (ones k, []) := by
  induction k with
  | zero => rfl
  | succ k ih =>
    cases k with
    | zero => rfl
    | succ k =>
      have hones : ones (k + 2) = '1' :: '1' :: ones k := rfl
      have hmore : moreDigits Char.isDigit ('1' :: ones k) = ('1' :: ones k, []) := ih
      rw [hones, moreDigits, hmore]
      rfl

theorem skipScalar_ones {k : Nat} (hk : Text.maxDigits < k) :
    skipScalar (ones k) = .error (.integerTooLong k) := by
  obtain ⟨n, rfl⟩ : ∃ n, k = n + 6 := ⟨k - 6, by unfold Text.maxDigits at hk; omega⟩
  have hdate : date? (ones (n + 6)) = none := rfl
  have htime : time? (ones (n + 6)) = none := rfl
  have hradix : radixInteger? (ones (n + 6)) = none := rfl
  have hwhole : wholePart? (ones (n + 6)) = some (ones (n + 6), []) := by
    change digits? ('1' :: ones (n + 5)) = _
    rw [digits?, moreDigits_ones]
    rfl
  have hdecimal : decimal? (ones (n + 6)) = some (.error (.integerTooLong (n + 6))) := by
    have hsign : skipSign (ones (n + 6)) = ones (n + 6) := rfl
    rw [decimal?, hsign, hwhole]
    simp [point?, exponent?, ones, hk]
  rw [skipScalar, hdate, htime, hradix, hdecimal]

theorem readDocument_ones {k : Nat} (hk : Text.maxDigits < k) :
    readDocument ("a = ".toList ++ ones k) = .error (.integerTooLong k) := by
  obtain ⟨n, rfl⟩ : ∃ n, k = n + 1 := ⟨k - 1, by omega⟩
  have hkey : Key.read ("a = ".toList ++ ones (n + 1)) =
      .ok (⟨[], "a"⟩, "= ".toList ++ ones (n + 1)) := rfl
  have hvalue : Value.read (ones (n + 1)) = .error (.integerTooLong (n + 1)) := by
    change (skipScalar (ones (n + 1)) >>= fun _ => _) = _
    rw [skipScalar_ones hk, error_bind]
  have hpair : pair Value.read ("a = ".toList ++ ones (n + 1)) =
      .error (.integerTooLong (n + 1)) := by
    rw [pair, hkey, ok_bind]
    change (Value.read (ones (n + 1)) >>= fun _ => _) = _
    rw [hvalue, error_bind]
  have hstatement : Draft.empty.statement ("a = ".toList ++ ones (n + 1)) =
      .error (.integerTooLong (n + 1)) := by
    change (pair Value.read ("a = ".toList ++ ones (n + 1)) >>= fun _ => _) = _
    rw [hpair, error_bind]
  change ((Draft.empty.statement ("a = ".toList ++ ones (n + 1)) >>= _) >>= _) = _
  rw [hstatement, error_bind, error_bind]

end NuPlugin.Toml
