import AnnotatedRoutes.Proofs.KeywordReading
import AnnotatedRoutes.Proofs.SpanScan

namespace AnnotatedRoutes.Source

/-- Whether a line begins at an offset, given whether one begins with the text. -/
def StartsLine (lineStart : Bool) (t : Text) : Nat → Prop
  | 0 => lineStart = true
  | i + 1 => t[i]? = some '\n'

theorem startsLine_cons_succ {lineStart : Bool} {c : Char} {t : Text} {i : Nat} :
    StartsLine lineStart (c :: t) (i + 1) ↔ StartsLine (c = '\n') t i := by
  cases i with
  | zero => simp [StartsLine]
  | succ i => simp [StartsLine]

section LineStarts

variable {α : Type} {read : Nat → Text → Option α}

theorem read_of_atLineStart?_eq_none {offset : Nat} {lineStart : Bool} {t : Text}
    (h : atLineStart? read offset lineStart t = none) {i : Nat} (hi : i < t.length)
    (hs : StartsLine lineStart t i) : read (offset + i) (t.drop i) = none := by
  induction t generalizing offset lineStart i with
  | nil => simp at hi
  | cons c t ih =>
    simp only [atLineStart?] at h
    split at h
    next => simp at h
    next hr =>
      cases i with
      | zero => simpa [show lineStart = true from hs] using hr
      | succ i =>
        have := ih h (by simpa using hi) (startsLine_cons_succ.mp hs)
        rwa [Nat.add_right_comm] at this

theorem exists_of_atLineStart? {offset : Nat} {lineStart : Bool} {t : Text} {a : α}
    (h : atLineStart? read offset lineStart t = some a) :
    ∃ i, StartsLine lineStart t i ∧ read (offset + i) (t.drop i) = some a ∧
      ∀ j < i, StartsLine lineStart t j → read (offset + j) (t.drop j) = none := by
  induction t generalizing offset lineStart with
  | nil => simp [atLineStart?] at h
  | cons c t ih =>
    simp only [atLineStart?] at h
    split at h
    next b hr =>
      cases Option.some.inj h
      cases lineStart with
      | false => simp at hr
      | true => exact ⟨0, rfl, hr, fun j hj => absurd hj (Nat.not_lt_zero j)⟩
    next hr =>
      obtain ⟨i, hs, ha, hn⟩ := ih h
      refine ⟨i + 1, startsLine_cons_succ.mpr hs, ?_, fun j hj hsj => ?_⟩
      · rwa [Nat.add_right_comm] at ha
      · cases j with
        | zero => simpa [show lineStart = true from hsj] using hr
        | succ j =>
          have := hn j (by omega) (startsLine_cons_succ.mp hsj)
          rwa [Nat.add_right_comm] at this

theorem atLineStart?_of_read {offset : Nat} {t : Text} {a : α} (ht : t ≠ [])
    (h : read offset t = some a) : atLineStart? read offset true t = some a := by
  cases t with
  | nil => exact absurd rfl ht
  | cons c t => rw [atLineStart?, if_pos rfl, h]

/-- A line on which nothing is read is passed over. -/
theorem atLineStart?_line {offset : Nat} {lineStart : Bool} {u : Text} (hu : '\n' ∉ u) (t : Text)
    (h : lineStart = true → read offset (u ++ '\n' :: t) = none) :
    atLineStart? read offset lineStart (u ++ '\n' :: t) =
      atLineStart? read (offset + u.length + 1) true t := by
  induction u generalizing offset lineStart with
  | nil =>
    rw [List.nil_append] at h ⊢
    cases lineStart with
    | false => rfl
    | true => rw [atLineStart?, if_pos rfl, h rfl]; rfl
  | cons c u ih =>
    obtain ⟨hc, hu⟩ := not_or.mp (List.mem_cons.not.mp hu)
    have hn : (if lineStart then read offset (c :: (u ++ '\n' :: t)) else none) = none := by
      cases lineStart with
      | false => rfl
      | true => exact h rfl
    have hlen : offset + 1 + u.length + 1 = offset + (c :: u).length + 1 := by
      rw [List.length_cons]
      omega
    rw [List.cons_append, atLineStart?, hn, decide_eq_false (Ne.symm hc), ih hu (by simp), hlen]

theorem atLineStart?_map {β : Type} (f : α → β) (offset : Nat) (lineStart : Bool) (t : Text) :
    atLineStart? (fun offset line => (read offset line).map f) offset lineStart t =
      (atLineStart? read offset lineStart t).map f := by
  induction t generalizing offset lineStart with
  | nil => rfl
  | cons c t ih =>
    have hif : (if lineStart then (read offset (c :: t)).map f else none) =
        (if lineStart then read offset (c :: t) else none).map f := by
      cases lineStart <;> rfl
    simp only [atLineStart?, hif]
    cases (if lineStart then read offset (c :: t) else none) with
    | none => exact ih _ _
    | some a => rfl

end LineStarts

/-- The name in a declaration, and where its keywords begin and it ends. -/
structure Declaration where
  name : Text
  start : Nat
  stop : Nat
  deriving DecidableEq

/-- The kinds of declarations that stand alone on their line. -/
structure DeclarationForm where
  read : Nat → Text → Option Declaration
  /-- What a declaration of a name is written as. -/
  Head : Text → Text → Prop
  /-- The characters that must not follow a declaration. -/
  continues : Char → Bool
  read_eq_some_iff {offset : Nat} {line : Text} {d : Declaration} :
    read offset line = some d ↔
      ∃ indent head rest, line = indent ++ (head ++ rest) ∧ Blank indent ∧ Head d.name head ∧
        Stops continues rest ∧ d.start = offset + indent.length ∧ d.stop = d.start + head.length
  head_ne_nil {name head : Text} : Head name head → head ≠ []
  stops_isBlank {name head : Text} : Head name head → Stops Text.isBlank head
  not_isOpening {name head : Text} : Head name head → ∀ c ∈ head, ¬ Span.IsOpening c
  isWordChar_of_continues {c : Char} : continues c = true → Text.isWordChar c = true

namespace DeclarationForm

variable {form : DeclarationForm} {t : Text} {d d' : Declaration}

variable (form) in
/-- The declaration stands in the text: it begins a line, blanks aside. -/
structure Declares (t : Text) (d : Declaration) : Prop where
  line : ∃ i, StartsLine true t i ∧ i ≤ d.start ∧ Blank (slice t i d.start)
  head : form.Head d.name (slice t d.start d.stop)
  stops : Stops form.continues (t.drop d.stop)
  start_le_stop : d.start ≤ d.stop
  stop_le_length : d.stop ≤ t.length

theorem read_drop_eq_some_iff {i : Nat} :
    form.read i (t.drop i) = some d ↔
      i ≤ d.start ∧ Blank (slice t i d.start) ∧ form.Head d.name (slice t d.start d.stop) ∧
        Stops form.continues (t.drop d.stop) ∧ d.start ≤ d.stop ∧ d.stop ≤ t.length := by
  rw [form.read_eq_some_iff]
  constructor
  · rintro ⟨indent, head, rest, ht, hi, hh, hr, hs, he⟩
    have hlen := congrArg List.length ht
    have hpos := List.length_pos_iff.mpr (form.head_ne_nil hh)
    simp only [List.length_drop, List.length_append] at hlen
    have hi' : (t.take i).length = i := List.length_take_of_le (by omega)
    have htext : t = t.take i ++ (indent ++ (head ++ rest)) := by rw [← ht, List.take_append_drop]
    have hindent : slice t i d.start = indent := by
      have := slice_append (t.take i) indent (head ++ rest)
      rwa [← htext, hi', ← hs] at this
    have hhead : slice t d.start d.stop = head := by
      have := slice_append (t.take i ++ indent) head rest
      rwa [List.append_assoc, ← htext, List.length_append, hi', ← hs, ← he] at this
    have hrest : t.drop d.stop = rest := by
      have : i + (indent.length + head.length) = d.stop := by omega
      rw [← this, ← List.drop_drop, ht, ← List.append_assoc, ← List.length_append, List.drop_left]
    rw [hindent, hhead, hrest]
    exact ⟨by omega, hi, hh, hr, by omega, by omega⟩
  · rintro ⟨hle, hi, hh, hr, hse, hlen⟩
    refine ⟨_, _, _, ?_, hi, hh, hr, ?_, ?_⟩
    · rw [slice_append_drop hse, slice_append_drop hle]
    · rw [length_slice (by omega)]
      omega
    · rw [length_slice hlen]
      omega

theorem declares_iff :
    form.Declares t d ↔ ∃ i, StartsLine true t i ∧ form.read i (t.drop i) = some d := by
  constructor
  · rintro ⟨⟨i, hs, hle, hi⟩, hh, hr, hse, hlen⟩
    exact ⟨i, hs, read_drop_eq_some_iff.mpr ⟨hle, hi, hh, hr, hse, hlen⟩⟩
  · rintro ⟨i, hs, hd⟩
    obtain ⟨hle, hi, hh, hr, hse, hlen⟩ := read_drop_eq_some_iff.mp hd
    exact ⟨⟨i, hs, hle, hi⟩, hh, hr, hse, hlen⟩

namespace Declares

theorem start_lt_stop (h : form.Declares t d) : d.start < d.stop := by
  have hpos := List.length_pos_iff.mpr (form.head_ne_nil h.head)
  rw [length_slice h.stop_le_length] at hpos
  omega

theorem exists_first (h : form.Declares t d) :
    ∃ c, t[d.start]? = some c ∧ Text.isBlank c = false := by
  obtain ⟨c, u, hc⟩ := List.exists_cons_of_ne_nil (form.head_ne_nil h.head)
  have hhead : (slice t d.start d.stop).head? = some c := by rw [hc, List.head?_cons]
  exact ⟨c, by rw [← head?_slice h.start_lt_stop, hhead], form.stops_isBlank h.head c hhead⟩

theorem eq_of_start_eq (h : form.Declares t d) (h' : form.Declares t d')
    (hs : d.start = d'.start) : d = d' := by
  have read : ∀ {d}, form.Declares t d → form.read d.start (t.drop d.start) = some d := by
    intro d h
    refine read_drop_eq_some_iff.mpr
      ⟨Nat.le_refl _, ?_, h.head, h.stops, h.start_le_stop, h.stop_le_length⟩
    simp [slice_self, Blank]
  exact Option.some.inj ((read h).symm.trans (hs ▸ read h'))

end Declares

variable (form) in
/-- The first declaration of a text. -/
def first? (t : Text) : Option Declaration := atLineStart? form.read 0 true t

theorem Declares.exists_first? (h : form.Declares t d) : ∃ d', form.first? t = some d' := by
  obtain ⟨i, hs, hd⟩ := declares_iff.mp h
  have hlt : i < t.length := by
    have := (read_drop_eq_some_iff.mp hd).1
    have := h.start_lt_stop
    have := h.stop_le_length
    omega
  refine Option.ne_none_iff_exists'.mp fun hn => ?_
  have := read_of_atLineStart?_eq_none hn hlt hs
  rw [Nat.zero_add, hd] at this
  simp at this

theorem of_first?_eq_some (h : form.first? t = some d) :
    form.Declares t d ∧ ∀ d', form.Declares t d' → d.start ≤ d'.start := by
  obtain ⟨i, hs, hd, hn⟩ := exists_of_atLineStart? h
  rw [Nat.zero_add] at hd
  refine ⟨declares_iff.mpr ⟨i, hs, hd⟩, fun d' h' => ?_⟩
  obtain ⟨i', hs', hd'⟩ := declares_iff.mp h'
  have hle' := (read_drop_eq_some_iff.mp hd').1
  by_cases hi : i' < i
  · have := hn i' hi hs'
    rw [Nat.zero_add, hd'] at this
    simp at this
  · -- between the line of the first declaration and the declaration there are blanks only
    obtain ⟨c, hc, hb⟩ := h'.exists_first
    by_contra hlt
    have hm : c ∈ slice t i d.start := mem_slice_iff.mpr ⟨d'.start, by omega, by omega, hc⟩
    exact absurd ((read_drop_eq_some_iff.mp hd).2.1 c hm) (by simp [hb])

/-- The search finds the declaration that stands before all others. -/
theorem first?_eq_some_iff :
    form.first? t = some d ↔ form.Declares t d ∧ ∀ d', form.Declares t d' → d.start ≤ d'.start := by
  refine ⟨of_first?_eq_some, fun ⟨h, hmin⟩ => ?_⟩
  obtain ⟨first, hf⟩ := h.exists_first?
  obtain ⟨hd, hall⟩ := of_first?_eq_some hf
  have := hall d h
  have := hmin first hd
  rw [hf, hd.eq_of_start_eq h (by omega)]

end DeclarationForm

end AnnotatedRoutes.Source
