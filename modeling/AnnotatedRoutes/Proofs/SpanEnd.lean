import AnnotatedRoutes.Proofs.DeclarationSearch

namespace AnnotatedRoutes.Source.Span

/-- A span that is closed at certain places ends `width` characters behind the first of them from
`start` on, and with the text, which has the given length, if there is none. -/
def EndsAtFirst (length : Nat) (closes : Nat → Prop) (width start stop : Nat) : Prop :=
  (∃ i, start ≤ i ∧ closes i ∧ (∀ j, start ≤ j → j < i → ¬ closes j) ∧ stop = i + width) ∨
    ((∀ i, start ≤ i → ¬ closes i) ∧ stop = length)

namespace EndsAtFirst

variable {length width start stop : Nat} {closes : Nat → Prop}

theorem eq {stop' : Nat} (h : EndsAtFirst length closes width start stop)
    (h' : EndsAtFirst length closes width start stop') : stop = stop' := by
  rcases h with ⟨i, hs, hi, hfirst, rfl⟩ | ⟨hnone, rfl⟩
  · rcases h' with ⟨i', hs', hi', hfirst', rfl⟩ | ⟨hnone', -⟩
    · have h₁ : ¬ i < i' := fun hlt => hfirst' i hs hlt hi
      have h₂ : ¬ i' < i := fun hlt => hfirst i' hs' hlt hi'
      omega
    · exact absurd hi (hnone' i hs)
  · rcases h' with ⟨i', hs', hi', -, -⟩ | ⟨-, rfl⟩
    · exact absurd hi' (hnone i' hs')
    · rfl

/-- The same end, seen from a text that goes on before. -/
theorem shift {closes' : Nat → Prop} (n : Nat) (hc : ∀ i, closes' (i + n) ↔ closes i)
    (h : EndsAtFirst length closes width 0 stop) :
    EndsAtFirst (length + n) closes' width n (stop + n) := by
  have behind : ∀ {j}, n ≤ j → (closes' j ↔ closes (j - n)) := by
    intro j hj
    rw [← hc, Nat.sub_add_cancel hj]
  rcases h with ⟨i, -, hi, hfirst, rfl⟩ | ⟨hnone, rfl⟩
  · refine Or.inl ⟨i + n, Nat.le_add_left n i, (hc i).mpr hi, fun j hn hj => ?_, by omega⟩
    rw [behind hn]
    exact hfirst (j - n) (Nat.zero_le _) (by omega)
  · refine Or.inr ⟨fun i hn => ?_, rfl⟩
    rw [behind hn]
    exact hnone (i - n) (Nat.zero_le _)

/-- A place that does not close a span may be passed over. -/
theorem of_succ (h0 : ¬ closes start) (h : EndsAtFirst length closes width (start + 1) stop) :
    EndsAtFirst length closes width start stop := by
  have other : ∀ {i}, closes i → start ≤ i → start + 1 ≤ i := by
    intro i hi hle
    refine Nat.lt_of_le_of_ne hle ?_
    rintro rfl
    exact h0 hi
  rcases h with ⟨i, hs, hi, hfirst, rfl⟩ | ⟨hnone, rfl⟩
  · exact Or.inl ⟨i, by omega, hi, fun j hs hj hc => hfirst j (other hc hs) hj hc, rfl⟩
  · exact Or.inr ⟨fun i hs hc => hnone i (other hc hs) hc, rfl⟩

theorem cons {closes' : Nat → Prop} (h0 : ¬ closes' 0) (hc : ∀ i, closes' (i + 1) ↔ closes i)
    (h : EndsAtFirst length closes width 0 stop) :
    EndsAtFirst (length + 1) closes' width 0 (stop + 1) :=
  (h.shift 1 hc).of_succ h0

/-- An end inside the text does not depend on what the text is behind it. -/
theorem congr {closes' : Nat → Prop} {length' : Nat} (hlt : stop < length)
    (hc : ∀ i, i + width ≤ stop → (closes' i ↔ closes i))
    (h : EndsAtFirst length closes width start stop) :
    EndsAtFirst length' closes' width start stop := by
  rcases h with ⟨i, hs, hi, hfirst, rfl⟩ | ⟨-, rfl⟩
  · refine Or.inl ⟨i, hs, (hc i (Nat.le_refl _)).mpr hi, fun j hj hlt => ?_, rfl⟩
    rw [hc j (by omega)]
    exact hfirst j hj hlt
  · exact absurd hlt (Nat.lt_irrefl _)

end EndsAtFirst

/-- A line comment ends before a line feed. -/
def ClosesLine (t : Text) (i : Nat) : Prop := t[i]? = some '\n'

def ClosesBlock (t : Text) (i : Nat) : Prop := Docblock.closing <+: t.drop i

/-- Whether a backslash takes the character at an offset along, one that is not taken along
itself. -/
def escaped (t : Text) : Nat → Bool
  | 0 => false
  | i + 1 => t[i]? = some '\\' && !escaped t i

/-- A string literal ends with its quote, unless a backslash takes it along. -/
def ClosesQuoted (quote : Char) (t : Text) (i : Nat) : Prop :=
  t[i]? = some quote ∧ escaped t i = false

/-- A heredoc ends with its label, which stands first on a line and which no word goes on from.
`lineStart` tells whether a line begins with the text. -/
def ClosesHeredoc (label : Text) (lineStart : Bool) (t : Text) (i : Nat) : Prop :=
  ∃ k ≤ i, StartsLine lineStart t k ∧ (∀ c ∈ slice t k i, isIndent c = true) ∧
    label <+: t.drop i ∧ Stops Text.isWordChar (t.drop (i + label.length))

theorem endsAtFirst_lineLength (t : Text) :
    EndsAtFirst t.length (ClosesLine t) 0 0 (lineLength t) := by
  induction t with
  | nil => exact Or.inr ⟨by simp [ClosesLine], rfl⟩
  | cons c t ih =>
    by_cases hc : c = '\n'
    · subst hc
      refine Or.inl ⟨0, Nat.le_refl 0, by simp [ClosesLine], fun j _ hj => by omega, ?_⟩
      simp [lineLength]
    · have hl : lineLength (c :: t) = lineLength t + 1 := by simp [lineLength, hc]
      rw [hl, List.length_cons]
      exact ih.cons (by simpa [ClosesLine] using hc) (by simp [ClosesLine])

theorem endsAtFirst_blockLength (t : Text) :
    EndsAtFirst t.length (ClosesBlock t) Docblock.closing.length 0 (blockLength t) := by
  induction t with
  | nil => exact Or.inr ⟨by simp [ClosesBlock, closing_ne_nil], rfl⟩
  | cons c t ih =>
    by_cases hc : Docblock.closing <+: c :: t
    · refine Or.inl ⟨0, Nat.le_refl 0, hc, fun j _ hj => by omega, ?_⟩
      rw [blockLength, Text.indexOf?_cons_of_starts hc]
    · have hl : blockLength (c :: t) = blockLength t + 1 := by
        rw [blockLength, blockLength, Text.indexOf?_cons_of_not_starts hc]
        cases Text.indexOf? Docblock.closing t with
        | none => rfl
        | some n => exact Nat.add_right_comm n 1 _
      rw [hl, List.length_cons]
      exact ih.cons hc fun i => Iff.rfl

theorem escaped_cons_of_ne {c : Char} (hc : c ≠ '\\') (t : Text) (i : Nat) :
    escaped (c :: t) (i + 1) = escaped t i := by
  induction i with
  | zero => simp [escaped, hc]
  | succ i ih =>
    rw [escaped, ih, List.getElem?_cons_succ, escaped]

theorem escaped_cons_cons (c : Char) (t : Text) (i : Nat) :
    escaped ('\\' :: c :: t) (i + 2) = escaped t i := by
  induction i with
  | zero => simp [escaped]
  | succ i ih =>
    rw [escaped, ih, List.getElem?_cons_succ, List.getElem?_cons_succ, escaped]

/-- Counting may begin behind any place that is not taken along. -/
theorem escaped_drop {t : Text} {n : Nat} (h : escaped t n = false) (i : Nat) :
    escaped t (i + n) = escaped (t.drop n) i := by
  induction i with
  | zero => rw [Nat.zero_add, h, escaped]
  | succ i ih =>
    rw [Nat.add_right_comm, escaped, ih, escaped, List.getElem?_drop, Nat.add_comm n i]

theorem endsAtFirst_quotedLength {quote : Char} (hq : quote ≠ '\\') (t : Text) :
    EndsAtFirst t.length (ClosesQuoted quote t) 1 0 (quotedLength quote t) := by
  fun_induction quotedLength quote t with
  | case1 => exact Or.inr ⟨by simp [ClosesQuoted], rfl⟩
  | case2 c =>
    by_cases hc : c = quote
    · exact Or.inl ⟨0, Nat.le_refl 0, by simp [ClosesQuoted, escaped, hc], by omega, rfl⟩
    · refine Or.inr ⟨fun i _ hi => ?_, rfl⟩
      obtain ⟨hget, -⟩ := hi
      cases i with
      | zero => exact hc (by simpa using hget)
      | succ i => simp at hget
  | case3 d t ih =>
    -- the backslash closes nothing, nor does the character that it takes along
    refine (ih.shift 2 fun i => ?_).of_succ ?_ |>.of_succ ?_
    · rw [ClosesQuoted, escaped_cons_cons]
      rfl
    · simp [ClosesQuoted, escaped]
    · simp [ClosesQuoted, Ne.symm hq]
  | case4 d t hc =>
    exact Or.inl ⟨0, Nat.le_refl 0, by simp [ClosesQuoted, escaped], by omega, rfl⟩
  | case5 c d t hc hne ih =>
    refine ih.cons (by simp [ClosesQuoted, hne]) fun i => ?_
    rw [ClosesQuoted, escaped_cons_of_ne hc]
    rfl

theorem closesHeredoc_iff {label : Text} (hl : Identifier label) {lineStart : Bool} {t : Text}
    {i : Nat} : ClosesHeredoc label lineStart t i ↔
      ∃ k ≤ i, StartsLine lineStart t k ∧
        closingLabel? label (t.drop k) = some (i - k + label.length) := by
  refine exists_congr fun k => and_congr_right fun hk => and_congr_right fun _ => ?_
  rw [closingLabel?_eq_some_iff hl]
  constructor
  · rintro ⟨hi, ⟨rest, hr⟩, hs⟩
    have hlen := congrArg List.length hr
    simp only [List.length_append, List.length_drop] at hlen
    have hpos := List.length_pos_iff.mpr hl.ne_nil
    refine ⟨slice t k i, rest, ?_, hi, ?_, ?_⟩
    · rw [hr, slice_append_drop hk]
    · rwa [← List.drop_drop, ← hr, List.drop_left] at hs
    · rw [length_slice (by omega)]
  · rintro ⟨indent, rest, ht, hi, hs, he⟩
    have hik : i = k + indent.length := by omega
    have hd : t.drop i = label ++ rest := by rw [hik, ← List.drop_drop, ht, List.drop_left]
    have hslice : slice t k i = indent := by
      rw [slice, hik, ← List.take_drop, ht, List.take_left]
    refine ⟨hslice ▸ hi, ⟨rest, hd.symm⟩, ?_⟩
    rwa [← List.drop_drop, hd, List.drop_left]

theorem endsAtFirst_heredocLength {label : Text} (hl : Identifier label) (lineStart : Bool)
    (t : Text) : EndsAtFirst t.length (ClosesHeredoc label lineStart t) label.length 0
      (heredocLength label lineStart t) := by
  induction t generalizing lineStart with
  | nil =>
    refine Or.inr ⟨?_, rfl⟩
    rintro i - ⟨_, _, _, _, hp, _⟩
    rw [List.drop_nil, List.prefix_nil] at hp
    exact hl.ne_nil hp
  | cons c t ih =>
    rcases closing_cases label (c :: t) lineStart with ⟨n, rfl, hn⟩ | hnone
    · rw [heredocLength_of_closing hn]
      obtain ⟨indent, rest, ht, hi, hr, rfl⟩ := (closingLabel?_eq_some_iff hl).mp hn
      refine Or.inl ⟨indent.length, Nat.zero_le _, ?_, fun j _ hj => ?_, rfl⟩
      · exact (closesHeredoc_iff hl).mpr ⟨0, Nat.zero_le _, rfl, hn⟩
      · -- before the label there are blanks only, and no label begins with one
        rintro ⟨_, _, _, _, ⟨after, hp⟩, _⟩
        obtain ⟨d, hd, hstart⟩ := hl.head
        have hget : (c :: t)[j]? = some d := by
          rw [← List.head?_drop, ← hp, List.head?_append, hd, Option.some_or]
        rw [ht, List.getElem?_append_left hj] at hget
        have := hi d (List.mem_of_getElem? hget)
        simp [isIndent_of_identifierStart hstart] at this
    · rw [heredocLength_of_not_closing hnone, List.length_cons]
      have later : ∀ {i}, ClosesHeredoc label lineStart (c :: t) i →
          ∃ k, k + 1 ≤ i ∧ StartsLine (c = '\n') t k ∧
            closingLabel? label (t.drop k) = some (i - (k + 1) + label.length) := by
        intro i h
        obtain ⟨k, hk, hs, hc⟩ := (closesHeredoc_iff hl).mp h
        cases k with
        | zero => simp [hnone hs] at hc
        | succ k => exact ⟨k, hk, startsLine_cons_succ.mp hs, hc⟩
      refine (ih (c = '\n')).cons (fun h => ?_) fun i => ?_
      · obtain ⟨k, hk, -⟩ := later h
        omega
      · constructor
        · intro h
          obtain ⟨k, hk, hs, hc⟩ := later h
          exact (closesHeredoc_iff hl).mpr
            ⟨k, by omega, hs, by rwa [Nat.add_sub_add_right] at hc⟩
        · intro h
          obtain ⟨k, hk, hs, hc⟩ := (closesHeredoc_iff hl).mp h
          refine (closesHeredoc_iff hl).mpr
            ⟨k + 1, by omega, startsLine_cons_succ.mpr hs, ?_⟩
          rwa [Nat.add_sub_add_right]

end AnnotatedRoutes.Source.Span
