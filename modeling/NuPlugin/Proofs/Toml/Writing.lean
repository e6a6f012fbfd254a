import NuPlugin.Proofs.Toml.Line

/-!
# Ways to write a text under a name

A text can stand under two names below a header, behind a dotted key or in an inline table. Every
spelling of the names and of the text, with any blanks between the pieces and any comment at the
end, is read as the same pair.
-/

namespace NuPlugin.Toml

variable {s b m u rest name text key written : List Char} {c : Char}

/-! ## Keys -/

/-- The ways to write a name in a key: as a text is written, or as it is, where it has only
characters for that. -/
inductive SpellsName (name : List Char) : List Char → Prop where
  | bare (hne : name ≠ []) (h : ∀ c ∈ name, Key.isBare c = true) : SpellsName name name
  | quoted {s : List Char} (h : Spells name s) : SpellsName name s

namespace Key

theorem canBegin_of_isBare (h : isBare c = true) : canBegin c = true := by
  simp [canBegin, h]

theorem ne_of_canBegin {d : Char} (h : canBegin c = true) (hd : canBegin d = false) : c ≠ d := by
  rintro rfl
  rw [h] at hd
  cases hd

theorem isSpace_of_canBegin (h : canBegin c = true) : isSpace c = false := by
  have hspace := ne_of_canBegin (d := ' ') h (by decide)
  have htab := ne_of_canBegin (d := '\t') h (by decide)
  simp [isSpace, hspace, htab]

end Key

theorem SpellsName.exists_cons (h : SpellsName name key) :
    ∃ c s, key = c :: s ∧ Key.canBegin c = true := by
  cases h with
  | bare hne h =>
    obtain ⟨c, s, rfl⟩ := List.exists_cons_of_ne_nil hne
    exact ⟨c, s, rfl, Key.canBegin_of_isBare (h c List.mem_cons_self)⟩
  | quoted h =>
    obtain ⟨quote, body, rfl, rfl | rfl, -⟩ := h.textBody <;> exact ⟨_, body, rfl, by decide⟩

theorem SpellsName.part (h : SpellsName name key)
    (hrest : ∀ c, rest.head? = some c → Key.isBare c = false) :
    Key.part (key ++ rest) = .ok (String.ofList name, rest) := by
  cases h with
  | bare hne h =>
    obtain ⟨c, s, rfl⟩ := List.exists_cons_of_ne_nil hne
    have htake : rest.takeWhile Key.isBare = [] ∧ rest.dropWhile Key.isBare = rest := by
      cases rest with
      | nil => exact ⟨rfl, rfl⟩
      | cons d rest => simp [hrest d rfl]
    rw [List.cons_append, Key.part, if_pos (h c List.mem_cons_self), ← List.cons_append,
      List.takeWhile_append_of_pos h, List.dropWhile_append_of_pos h, htake.1, htake.2,
      List.append_nil]
  | quoted h =>
    obtain ⟨quote, body, rfl, hquote, hbody⟩ := h.textBody
    have hbare : Key.isBare quote = false := by
      rcases hquote with rfl | rfl <;> decide
    rw [List.cons_append, Key.part, if_neg (by simp [hbare]), if_pos hquote,
      textBody_append hquote hbody, ok_bind]
    rfl

namespace Key

/-- A mark that ends a key. -/
def Ends (c : Char) : Prop := isBare c = false ∧ isSpace c = false ∧ c ≠ '.'

instance (c : Char) : Decidable (Ends c) := inferInstanceAs (Decidable (_ ∧ _ ∧ _))

theorem readIn_name (h : SpellsName name key) (hb : IsBlank b) (hc : Ends c) (parts : Nat)
    (s : List Char) :
    readIn (parts + 1) (key ++ (b ++ c :: s)) = .ok (⟨[], String.ofList name⟩, c :: s) := by
  obtain ⟨hbare, hspace, hdot⟩ := hc
  rw [readIn, h.part (hb.head?_ne (by decide) (by decide) hbare s), ok_bind]
  dsimp only
  rw [hb.skipSpaces_cons hspace]
  split
  · next he => exact absurd (List.cons.inj he).1 hdot
  · rfl

theorem read_name (h : SpellsName name key) (hb : IsBlank b) (hc : Ends c) (s : List Char) :
    read (key ++ (b ++ c :: s)) = .ok (⟨[], String.ofList name⟩, c :: s) :=
  readIn_name h hb hc _ s

theorem read_dotted {first firstKey b₁ b₂ : List Char} (hfirst : SpellsName first firstKey)
    (hb₁ : IsBlank b₁) (hb₂ : IsBlank b₂) (h : SpellsName name key) (hb : IsBlank b)
    (hc : Ends c) (s : List Char) :
    read (firstKey ++ (b₁ ++ '.' :: (b₂ ++ (key ++ (b ++ c :: s))))) =
      .ok (⟨[String.ofList first], String.ofList name⟩, c :: s) := by
  obtain ⟨d, k, hkey, hd⟩ := h.exists_cons
  have hskip : skipSpaces (b₂ ++ (key ++ (b ++ c :: s))) = key ++ (b ++ c :: s) := by
    rw [hkey]
    exact hb₂.skipSpaces_cons (isSpace_of_canBegin hd) _
  have hpart := hfirst.part
    (hb₁.head?_ne (by decide) (by decide) (by decide : isBare '.' = false)
      (b₂ ++ (key ++ (b ++ c :: s))))
  -- The length of the text is the number of parts that may be read, and two are needed.
  obtain ⟨parts, hparts⟩ : ∃ parts,
      (firstKey ++ (b₁ ++ '.' :: (b₂ ++ (key ++ (b ++ c :: s))))).length = parts + 1 :=
    ⟨_, by simp only [List.length_append, List.length_cons]; rfl⟩
  rw [read, hparts, readIn, hpart, ok_bind]
  dsimp only
  rw [hb₁.skipSpaces_cons (by decide)]
  change (readIn (parts + 1) (skipSpaces (b₂ ++ (key ++ (b ++ c :: s)))) >>= _) = _
  rw [hskip, readIn_name h hb hc]
  rfl

end Key

/-! ## Pairs -/

theorem Spells.exists_cons (h : Spells text written) :
    ∃ c s, written = c :: s ∧ isSpace c = false := by
  obtain ⟨quote, body, rfl, rfl | rfl, -⟩ := h.textBody <;> exact ⟨_, body, rfl, rfl⟩

theorem pair_eq_ok {item : ValueReader} {k : Key} {v : Value}
    (hkey : Key.read s = .ok (k, '=' :: (b ++ c :: written))) (hb : IsBlank b)
    (hc : isSpace c = false) (hitem : item (c :: written) = .ok (v, rest)) :
    pair item s = .ok ((k, v), rest) := by
  rw [pair, hkey, ok_bind]
  change (item (skipSpaces (b ++ c :: written)) >>= _) = _
  rw [hb.skipSpaces_cons hc, hitem]
  rfl

theorem Value.readIn_inlineTable {depth : Nat} {name : String} {v : Value} {b' : List Char}
    (hb : IsBlank b) (hc : Key.canBegin c = true)
    (hpair : pair (readIn depth) (c :: s) = .ok ((⟨[], name⟩, v), b' ++ '\x7d' :: rest))
    (hb' : IsBlank b') :
    readIn (depth + 1) ('\x7b' :: (b ++ c :: s)) = .ok (.table [(name, v)], rest) := by
  have hskip := hb.skipSpaces_cons (Key.isSpace_of_canBegin hc) s
  have hbrace : c ≠ '\x7d' := Key.ne_of_canBegin hc (by decide)
  have hin : inlineTableAfter (readIn depth) (b ++ c :: s) = .ok (.table [(name, v)], rest) := by
    rw [inlineTableAfter, hskip]
    split
    · next he => exact absurd (List.cons.inj he).1 hbrace
    · rw [pairsIn, hpair, ok_bind]
      dsimp only
      rw [hb'.skipSpaces_cons (by decide)]
      rfl
  rw [readIn]
  dsimp only
  rw [if_neg (by decide), if_neg (by decide), if_pos rfl, hin]

/-! ## Lines -/

namespace Draft

variable {d d' : Draft} {name text : String} {line : List Char}

theorem readAll_headerLine (hname : SpellsName name.toList key)
    (hline : Line [['['], key, [']']] line) (hu : EndsLine u)
    (hopen : d.settle.openTable ⟨[], name⟩ = .ok d') :
    d.readAll (line ++ u) = d'.readAll u.tail := by
  obtain ⟨s, m, hs, hm, rfl⟩ := hline
  simp only [Spaced.cons_iff, Spaced.nil_iff] at hs
  obtain ⟨b₁, _, hb₁, ⟨b₂, _, hb₂, ⟨b₃, _, hb₃, rfl, rfl⟩, rfl⟩, rfl⟩ := hs
  obtain ⟨c, k, rfl, hc⟩ := hname.exists_cons
  have hkey := Key.read_name hname hb₃ (c := ']') (by decide) (m ++ u)
  have hskip := hb₂.skipSpaces_cons (Key.isSpace_of_canBegin hc) (k ++ (b₃ ++ ']' :: (m ++ u)))
  have hhead := hb₂.head?_ne (p := (· == '[')) rfl rfl
    (beq_eq_false_iff_ne.2 (Key.ne_of_canBegin hc (by decide))) (k ++ (b₃ ++ ']' :: (m ++ u)))
  simp only [String.ofList_toList, List.append_assoc, List.cons_append, List.nil_append] at hkey ⊢
  apply readAll_of_statement hb₁ (by decide) (by decide) ?_ hm hu
  rw [statement_table d fun he => absurd (hhead _ he) (by decide), tableHeader, hskip, hkey,
    ok_bind]
  dsimp only
  rw [hopen]
  rfl

theorem readAll_pair {k : Key} {v : Value} (hb : IsBlank b) (hc : Key.canBegin c = true)
    (hpair : pair Value.read (c :: s) = .ok ((k, v), m ++ u)) (hassign : d.assign k v = .ok d')
    (hm : Margin m) (hu : EndsLine u) : d.readAll (b ++ c :: s) = d'.readAll u.tail := by
  have hbracket : c ≠ '[' := Key.ne_of_canBegin hc (by decide)
  have hhash : c ≠ '#' := Key.ne_of_canBegin hc (by decide)
  have hnewline : c ≠ '\n' := Key.ne_of_canBegin hc (by decide)
  apply readAll_of_statement hb (Key.isSpace_of_canBegin hc) hnewline ?_ hm hu
  rw [statement_pair d hbracket hhash, if_pos hc, pairStatement, hpair, ok_bind]
  dsimp only
  rw [hassign]
  rfl

section

variable (hwritten : Spells text.toList written) (hne : text.toList ≠ [])

include hwritten hne

theorem readAll_nameLine (hname : SpellsName name.toList key)
    (hline : Line [key, ['='], written] line) (hu : EndsLine u)
    (hassign : d.assign ⟨[], name⟩ (.text text) = .ok d') :
    d.readAll (line ++ u) = d'.readAll u.tail := by
  obtain ⟨s, m, hs, hm, rfl⟩ := hline
  simp only [Spaced.cons_iff, Spaced.nil_iff] at hs
  obtain ⟨b₁, _, hb₁, ⟨b₂, _, hb₂, ⟨b₃, _, hb₃, rfl, rfl⟩, rfl⟩, rfl⟩ := hs
  obtain ⟨c, k, rfl, hc⟩ := hname.exists_cons
  obtain ⟨q, w, rfl, hq⟩ := hwritten.exists_cons
  have hkey := Key.read_name hname hb₂ (c := '=') (by decide) (b₃ ++ (q :: w ++ (m ++ u)))
  have hitem := hwritten.readIn hne (q :: w ++ (m ++ u)).length (m ++ u)
  simp only [String.ofList_toList, List.append_assoc, List.cons_append, List.nil_append]
    at hkey hitem ⊢
  exact readAll_pair hb₁ hc (pair_eq_ok hkey hb₃ hq hitem) hassign hm hu

theorem readAll_dottedLine {first : String} {firstKey : List Char}
    (hfirst : SpellsName first.toList firstKey) (hname : SpellsName name.toList key)
    (hline : Line [firstKey, ['.'], key, ['='], written] line) (hu : EndsLine u)
    (hassign : d.assign ⟨[first], name⟩ (.text text) = .ok d') :
    d.readAll (line ++ u) = d'.readAll u.tail := by
  obtain ⟨s, m, hs, hm, rfl⟩ := hline
  simp only [Spaced.cons_iff, Spaced.nil_iff] at hs
  obtain ⟨b₁, _, hb₁, ⟨b₂, _, hb₂, ⟨b₃, _, hb₃, ⟨b₄, _, hb₄, ⟨b₅, _, hb₅, rfl, rfl⟩, rfl⟩, rfl⟩,
    rfl⟩, rfl⟩ := hs
  obtain ⟨c, k, rfl, hc⟩ := hfirst.exists_cons
  obtain ⟨q, w, rfl, hq⟩ := hwritten.exists_cons
  have hkey := Key.read_dotted hfirst hb₂ hb₃ hname hb₄ (c := '=') (by decide)
    (b₅ ++ (q :: w ++ (m ++ u)))
  have hitem := hwritten.readIn hne (q :: w ++ (m ++ u)).length (m ++ u)
  simp only [String.ofList_toList, List.append_assoc, List.cons_append, List.nil_append]
    at hkey hitem ⊢
  exact readAll_pair hb₁ hc (pair_eq_ok hkey hb₅ hq hitem) hassign hm hu

theorem readAll_inlineLine {first : String} {firstKey : List Char}
    (hfirst : SpellsName first.toList firstKey) (hname : SpellsName name.toList key)
    (hline : Line [firstKey, ['='], ['\x7b'], key, ['='], written, ['\x7d']] line)
    (hu : EndsLine u)
    (hassign : d.assign ⟨[], first⟩ (.table [(name, .text text)]) = .ok d') :
    d.readAll (line ++ u) = d'.readAll u.tail := by
  obtain ⟨s, m, hs, hm, rfl⟩ := hline
  simp only [Spaced.cons_iff, Spaced.nil_iff] at hs
  obtain ⟨b₁, _, hb₁, ⟨b₂, _, hb₂, ⟨b₃, _, hb₃, ⟨b₄, _, hb₄, ⟨b₅, _, hb₅, ⟨b₆, _, hb₆, ⟨b₇, _, hb₇,
    rfl, rfl⟩, rfl⟩, rfl⟩, rfl⟩, rfl⟩, rfl⟩, rfl⟩ := hs
  obtain ⟨c, k, rfl, hc⟩ := hfirst.exists_cons
  obtain ⟨c', k', rfl, hc'⟩ := hname.exists_cons
  obtain ⟨q, w, rfl, hq⟩ := hwritten.exists_cons
  have hinner := Key.read_name hname hb₅ (c := '=') (by decide)
    (b₆ ++ (q :: w ++ (b₇ ++ '\x7d' :: (m ++ u))))
  have hkey := Key.read_name hfirst hb₂ (c := '=') (by decide)
    (b₃ ++ '\x7b' :: (b₄ ++ (c' :: k' ++ (b₅ ++ '=' ::
      (b₆ ++ (q :: w ++ (b₇ ++ '\x7d' :: (m ++ u))))))))
  have hitem := fun depth => hwritten.readIn hne depth (b₇ ++ '\x7d' :: (m ++ u))
  simp only [String.ofList_toList, List.append_assoc, List.cons_append, List.nil_append]
    at hkey hinner hitem ⊢
  have htable := fun depth =>
    Value.readIn_inlineTable hb₄ hc' (pair_eq_ok hinner hb₆ hq (hitem depth)) hb₇
  exact readAll_pair hb₁ hc (pair_eq_ok hkey hb₃ (by decide) (htable _)) hassign hm hu

end

end Draft

/-! ## Documents -/

/-- The ways to write a text under two names and nothing else: below a header, behind a dotted key,
or in an inline table. The last line ends with a newline or with the document. -/
inductive Writes (first name text : String) : List Char → Prop where
  | header {firstKey key written line line' stop : List Char}
      (hfirst : SpellsName first.toList firstKey) (hname : SpellsName name.toList key)
      (hwritten : Spells text.toList written) (hline : Line [['['], firstKey, [']']] line)
      (hline' : Line [key, ['='], written] line') (hstop : EndsText stop) :
      Writes first name text (line ++ '\n' :: (line' ++ stop))
  | dotted {firstKey key written line stop : List Char} (hfirst : SpellsName first.toList firstKey)
      (hname : SpellsName name.toList key) (hwritten : Spells text.toList written)
      (hline : Line [firstKey, ['.'], key, ['='], written] line)
      (hstop : EndsText stop) : Writes first name text (line ++ stop)
  | inlineTable {firstKey key written line stop : List Char}
      (hfirst : SpellsName first.toList firstKey) (hname : SpellsName name.toList key)
      (hwritten : Spells text.toList written)
      (hline : Line [firstKey, ['='], ['\x7b'], key, ['='], written, ['\x7d']] line)
      (hstop : EndsText stop) : Writes first name text (line ++ stop)

end NuPlugin.Toml
