import NuPlugin.Proofs.Toml.Scalar
import NuPlugin.Proofs.Toml.TextLiteral
import NuPlugin.Toml.ValueReader

/-!
# Keys and values across a seam

A value ends on its own, by a closing mark or by what no longer belongs to it. More depth, or more
items than it has, are of no use to it.
-/

namespace NuPlugin.Toml

variable {s t rest : List Char}

theorem skipSpaces_seam (hs : Seam s t) : Seam (skipSpaces s) t :=
  (skipSpaces_passes false s).leaves.seam hs

theorem skipSpaces_suffix (s : List Char) : skipSpaces s <:+ s :=
  (skipSpaces_passes false s).leaves.suffix

/-! ## Keys -/

namespace Key

theorem part_carried (hs : Seam s t) : Carried s t (part s) (part (s ++ t)) := by
  cases s with
  | nil => exact .error _ _
  | cons c s =>
    rw [part, List.cons_append, part, ← List.cons_append]
    split
    · rw [hs.takeWhile rfl, hs.dropWhile rfl]
      have hrest := Leaves.dropWhile (p := isBare) rfl (c :: s)
      exact .ok hrest.suffix (hrest.seam hs)
    · split
      · next hc =>
        have hs' : Seam s t := hs.tail (by rcases hc with rfl | rfl <;> decide)
        refine .mono (List.suffix_cons c s) ((textBody_carried hc hs').bind ?_)
        intro body r hr
        exact .ok (List.suffix_refl r) hr
      · exact .error _ _

theorem readIn_carried {parts parts' : Nat} (hle : parts ≤ parts') (hs : Seam s t) :
    Carried s t (readIn parts s) (readIn parts' (s ++ t)) := by
  induction parts generalizing s parts' with
  | zero => exact .error _ _
  | succ parts ih =>
    obtain ⟨parts', rfl⟩ : ∃ n, parts' = n + 1 := ⟨parts' - 1, by omega⟩
    rw [readIn, readIn]
    apply (part_carried hs).bind
    intro name r hr
    dsimp only
    rw [skipSpaces_append hr]
    apply Carried.mono (skipSpaces_suffix r)
    have hr' := skipSpaces_seam hr
    split
    · next r' hdot =>
      rw [hdot] at hr' ⊢
      have hs' := hr'.tail (by decide)
      change Carried _ t _ (readIn parts' (skipSpaces (r' ++ t)) >>= _)
      rw [skipSpaces_append hs']
      apply Carried.mono ((skipSpaces_suffix r').trans (List.suffix_cons '.' r'))
      apply (ih (by omega) (skipSpaces_seam hs')).bind
      intro k r'' hr''
      exact .ok (List.suffix_refl r'') hr''
    · next hdot =>
      split
      · next r'' he =>
        obtain ⟨r', hr'⟩ := hr'.front (by decide) he
        exact absurd hr' (hdot r')
      · exact .ok (List.suffix_refl _) hr'

theorem read_carried (hs : Seam s t) : Carried s t (read s) (read (s ++ t)) := by
  refine readIn_carried ?_ hs
  rw [List.length_append]
  omega

end Key

/-! ## Arrays -/

/-- Readers of the parts of a value before and after more text was added. -/
structure ItemsCarried (t : List Char) (item item' : ValueReader) : Prop where
  nonempty : ∀ v rest, item [] ≠ .ok (v, rest)
  carried : ∀ {s}, Seam s t → Carried s t (item s) (item' (s ++ t))

variable {item item' : ValueReader}

theorem skipBlanks_carried {α : Type} {f g : List Char → Except Fault (α × List Char)}
    (hs : Seam s t) (hnil : ∀ a rest, f [] ≠ .ok (a, rest))
    (hf : ∀ r, Seam r t → r ≠ [] → Carried r t (f r) (g (r ++ t))) :
    Carried s t (skipBlanks false s >>= f) (skipBlanks false (s ++ t) >>= g) := by
  intro a rest h
  obtain ⟨r, hskip, hr⟩ := bind_eq_ok.1 h
  have hne : r ≠ [] := by
    rintro rfl
    exact hnil a rest hr
  obtain ⟨w, rfl, -⟩ := skipBlanks_passes hskip
  obtain ⟨hrest, hs', hg⟩ := hf r (hs.of_append_ne_nil hne) hne a rest hr
  rw [skipBlanks_append hskip hne, ok_bind]
  exact ⟨hrest.trans (List.suffix_append w r), hs', hg⟩

theorem itemsIn_nil (hitem : ∀ v rest, item [] ≠ .ok (v, rest)) (items : Nat) (vs : List Value)
    (rest : List Char) : itemsIn item items [] ≠ .ok (vs, rest) := by
  cases items with
  | zero => exact nofun
  | succ items =>
    intro h
    obtain ⟨⟨v, r⟩, hv, -⟩ := bind_eq_ok.1 h
    exact hitem v r hv

theorem itemsIn_carried (hitem : ItemsCarried t item item') {items items' : Nat}
    (hle : items ≤ items') (hs : Seam s t) :
    Carried s t (itemsIn item items s) (itemsIn item' items' (s ++ t)) := by
  induction items generalizing s items' with
  | zero => exact .error _ _
  | succ items ih =>
    obtain ⟨items', rfl⟩ : ∃ n, items' = n + 1 := ⟨items' - 1, by omega⟩
    rw [itemsIn, itemsIn]
    apply (hitem.carried hs).bind
    intro v r hr
    refine skipBlanks_carried hr nofun fun r' hr' hne => ?_
    split
    · exact .ok (List.suffix_cons _ _) (hr'.tail (by decide))
    · -- Behind a comma there may be the closing bracket already.
      apply Carried.mono (List.suffix_cons _ _)
      refine skipBlanks_carried (hr'.tail (by decide)) ?_ fun r'' hr'' hne' => ?_
      · intro vs rest h
        obtain ⟨⟨vs, r⟩, hvs, -⟩ := bind_eq_ok.1 h
        exact itemsIn_nil hitem.nonempty items vs r hvs
      · split
        · exact .ok (List.suffix_cons _ _) (hr''.tail (by decide))
        · next hbracket =>
          split
          · next he =>
            obtain ⟨s', hs'⟩ := hr''.front (by decide) he
            exact absurd hs' (hbracket s')
          · refine (ih (by omega) hr'').bind fun vs r hr => ?_
            exact .ok (List.suffix_refl r) hr
    · exact .error _ _

theorem arrayAfter_carried (hitem : ItemsCarried t item item') (hs : Seam s t) :
    Carried s t (arrayAfter item s) (arrayAfter item' (s ++ t)) := by
  refine skipBlanks_carried hs ?_ fun r hr hne => ?_
  · intro v rest h
    obtain ⟨⟨vs, r⟩, hvs, -⟩ := bind_eq_ok.1 h
    exact itemsIn_nil hitem.nonempty _ vs r hvs
  · split
    · exact .ok (List.suffix_cons _ _) (hr.tail (by decide))
    · next hbracket =>
      split
      · next he =>
        obtain ⟨s', hs'⟩ := hr.front (by decide) he
        exact absurd hs' (hbracket s')
      · refine (itemsIn_carried hitem ?_ hr).bind fun vs r hr => ?_
        · rw [List.length_append]
          omega
        · exact .ok (List.suffix_refl r) hr

/-! ## Inline tables -/

theorem pair_carried (hitem : ItemsCarried t item item') (hs : Seam s t) :
    Carried s t (pair item s) (pair item' (s ++ t)) := by
  apply (Key.read_carried hs).bind
  intro k r hr
  dsimp only
  split
  · next r =>
    have hr' : Seam r t := hr.tail (by decide)
    change Carried _ t _ (item' (skipSpaces (r ++ t)) >>= _)
    rw [skipSpaces_append hr']
    apply Carried.mono ((skipSpaces_suffix r).trans (List.suffix_cons _ _))
    apply (hitem.carried (skipSpaces_seam hr')).bind
    intro v r hr
    exact .ok (List.suffix_refl r) hr
  · exact .error _ _

theorem located_carried {α β : Type} {x : Except Cause α} {r r' : List Char}
    {f g : α → Except Fault (β × List Char)} (h : ∀ a, Carried s t (f a) (g a)) :
    Carried s t (located r x >>= f) (located r' x >>= g) := by
  cases x with
  | error e => exact .error _ _
  | ok a => exact h a

theorem pairsIn_carried (hitem : ItemsCarried t item item') {pairs pairs' : Nat}
    (hle : pairs ≤ pairs') (m : Marks) (table : Table) (hs : Seam s t) :
    Carried s t (pairsIn item pairs m table s) (pairsIn item' pairs' m table (s ++ t)) := by
  induction pairs generalizing s pairs' m table with
  | zero => exact .error _ _
  | succ pairs ih =>
    obtain ⟨pairs', rfl⟩ : ∃ n, pairs' = n + 1 := ⟨pairs' - 1, by omega⟩
    rw [pairsIn, pairsIn]
    apply (pair_carried hitem hs).bind
    rintro ⟨k, v⟩ r hr
    apply located_carried
    intro table
    rw [skipSpaces_append hr]
    apply Carried.mono (skipSpaces_suffix r)
    have hr' := skipSpaces_seam hr
    split
    · next r' he =>
      rw [he] at hr' ⊢
      exact .ok (List.suffix_cons _ _) (hr'.tail (by decide))
    · next r' he =>
      rw [he] at hr' ⊢
      have hs' := hr'.tail (by decide)
      change Carried _ t _ (pairsIn item' pairs' _ table (skipSpaces (r' ++ t)))
      rw [skipSpaces_append hs']
      apply Carried.mono ((skipSpaces_suffix r').trans (List.suffix_cons _ _))
      exact ih (by omega) _ table (skipSpaces_seam hs')
    · exact .error _ _

theorem inlineTableAfter_carried (hitem : ItemsCarried t item item') (hs : Seam s t) :
    Carried s t (inlineTableAfter item s) (inlineTableAfter item' (s ++ t)) := by
  unfold inlineTableAfter
  rw [skipSpaces_append hs]
  apply Carried.mono (skipSpaces_suffix s)
  have hs' := skipSpaces_seam hs
  split
  · next r he =>
    rw [he] at hs' ⊢
    exact .ok (List.suffix_cons _ _) (hs'.tail (by decide))
  · next hbrace =>
    split
    · next he =>
      obtain ⟨s', hs'⟩ := hs'.front (by decide) he
      exact absurd hs' (hbrace s')
    · refine (pairsIn_carried hitem ?_ .none [] hs').bind fun table r hr => ?_
      · rw [List.length_append]
        omega
      · exact .ok (List.suffix_refl r) hr

/-! ## Values -/

namespace Value

theorem readIn_nil (depth : Nat) (v : Value) (rest : List Char) :
    readIn depth [] ≠ .ok (v, rest) := by
  cases depth <;> exact nofun

theorem readIn_carried {depth depth' : Nat} (hle : depth ≤ depth') (hs : Seam s t) :
    Carried s t (readIn depth s) (readIn depth' (s ++ t)) := by
  induction depth generalizing s depth' with
  | zero => exact .error _ _
  | succ depth ih =>
    obtain ⟨depth', rfl⟩ : ∃ n, depth' = n + 1 := ⟨depth' - 1, by omega⟩
    have hitem : ItemsCarried t (readIn depth) (readIn depth') :=
      ⟨readIn_nil depth, fun hs => ih (by omega) hs⟩
    cases s with
    | nil => exact .error _ _
    | cons c s =>
      rw [readIn, List.cons_append, readIn]
      dsimp only
      split
      · next hc =>
        have hs' : Seam s t := hs.tail (by rcases hc with rfl | rfl <;> decide)
        refine .mono (List.suffix_cons c s) ((textAfter_carried hc hs').bind ?_)
        intro body r hr
        exact .ok (List.suffix_refl r) hr
      · split
        · next hc =>
          exact .mono (List.suffix_cons c s) (arrayAfter_carried hitem (hs.tail (hc ▸ by decide)))
        · split
          · next hc =>
            exact .mono (List.suffix_cons c s)
              (inlineTableAfter_carried hitem (hs.tail (hc ▸ by decide)))
          · intro v rest h
            obtain ⟨r, hskip, h⟩ := bind_eq_ok.1 h
            cases h
            have hr := skipScalar_passes hskip
            refine ⟨hr.suffix, hr.seam hs, ?_⟩
            rw [← List.cons_append, skipScalar_append hs hskip]
            rfl

theorem read_carried (t : List Char) : ItemsCarried t read read where
  nonempty := readIn_nil 1
  carried {s} hs := readIn_carried (by rw [List.length_append]; omega) hs

end Value

end NuPlugin.Toml
