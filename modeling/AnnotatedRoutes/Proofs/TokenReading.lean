import AnnotatedRoutes.Source.Span
import AnnotatedRoutes.Proofs.TextShape

namespace AnnotatedRoutes.Source

/-- The text is empty or begins with a character outside a class. -/
def Stops (p : Char → Bool) (t : Text) : Prop := ∀ c, t.head? = some c → p c = false

theorem stops_nil (p : Char → Bool) : Stops p [] := by simp [Stops]

theorem stops_cons {p : Char → Bool} {c : Char} {t : Text} : Stops p (c :: t) ↔ p c = false := by
  simp [Stops]

theorem stops_dropWhile (p : Char → Bool) (t : Text) : Stops p (t.dropWhile p) := by
  intro c hc
  have h := List.head?_dropWhile_not p t
  simpa [hc] using h

theorem takeWhile_run {p : Char → Bool} {u rest : Text} (hu : ∀ c ∈ u, p c = true)
    (hr : Stops p rest) : (u ++ rest).takeWhile p = u := by
  rw [List.takeWhile_append_of_pos hu]
  cases rest with
  | nil => simp
  | cons c rest => simp [stops_cons.mp hr]

theorem dropWhile_run {p : Char → Bool} {u rest : Text} (hu : ∀ c ∈ u, p c = true)
    (hr : Stops p rest) : (u ++ rest).dropWhile p = rest := by
  rw [List.dropWhile_append_of_pos hu]
  exact Text.dropWhile_eq_self_iff_head.mpr hr

theorem Stops.mono {p q : Char → Bool} {t : Text} (h : Stops p t)
    (hq : ∀ c, q c = true → p c = true) : Stops q t := by
  intro c hc
  have hp := h c hc
  by_contra hn
  rw [Bool.not_eq_false] at hn
  rw [hq c hn] at hp
  simp at hp

/-- A text that does not stop a class on its own stops it before anything else. -/
theorem Stops.append {p : Char → Bool} {u : Text} (hu : Stops p u) (hne : u ≠ []) (v : Text) :
    Stops p (u ++ v) := by
  cases u with
  | nil => exact absurd rfl hne
  | cons c u => exact hu

theorem Stops.of_append {p : Char → Bool} {u v : Text} (h : Stops p (u ++ v)) : Stops p u := by
  cases u with
  | nil => exact stops_nil p
  | cons c u => exact stops_cons.mpr (stops_cons.mp h)

theorem Stops.append_stops {p : Char → Bool} {u v : Text} (hu : Stops p u) (hv : Stops p v) :
    Stops p (u ++ v) := by
  cases u with
  | nil => exact hv
  | cons c u => exact hu.append (List.cons_ne_nil c u) v

/-- A word: a character of one class, and characters of another one. -/
structure Word (first all : Char → Bool) (t : Text) : Prop where
  head : ∃ c, t.head? = some c ∧ first c = true
  all : ∀ c ∈ t, all c = true

instance (first all : Char → Bool) (t : Text) : Decidable (Word first all t) :=
  decidable_of_iff (t.head?.any first = true ∧ t.all all = true)
    ⟨fun ⟨hh, ha⟩ => ⟨(Option.any_eq_true _ _).mp hh, List.all_eq_true.mp ha⟩,
      fun ⟨hh, ha⟩ => ⟨(Option.any_eq_true _ _).mpr hh, List.all_eq_true.mpr ha⟩⟩

/-- The longest word at the beginning. -/
def word? (first all : Char → Bool) : Text → Option (Text × Text)
  | [] => none
  | c :: t => if first c then some (c :: t.takeWhile all, t.dropWhile all) else none

section Words

variable {first all : Char → Bool}

theorem word?_eq_some_iff (h : ∀ c, first c = true → all c = true) {t name rest : Text} :
    word? first all t = some (name, rest) ↔
      t = name ++ rest ∧ Word first all name ∧ Stops all rest := by
  constructor
  · intro hw
    cases t with
    | nil => simp [word?] at hw
    | cons c t =>
      simp only [word?] at hw
      split at hw
      next hc =>
        obtain ⟨rfl, rfl⟩ := Prod.mk.inj (Option.some.inj hw)
        refine ⟨by simp, ⟨⟨c, rfl, hc⟩, ?_⟩, stops_dropWhile _ t⟩
        intro d hd
        rcases List.mem_cons.mp hd with rfl | hd
        · exact h d hc
        · exact List.mem_takeWhile_imp hd
      next => simp at hw
  · rintro ⟨rfl, ⟨⟨c, hc, hs⟩, ha⟩, hr⟩
    cases name with
    | nil => simp at hc
    | cons d name =>
      cases Option.some.inj hc
      have ht : ∀ d ∈ name, all d = true := fun d hd => ha d (List.mem_cons_of_mem _ hd)
      rw [List.cons_append, word?, if_pos hs, takeWhile_run ht hr, dropWhile_run ht hr]

theorem Word.ne_nil {t : Text} (h : Word first all t) : t ≠ [] := by
  obtain ⟨c, hc, _⟩ := h.head
  rintro rfl
  simp at hc

theorem Word.stops {t : Text} (h : Word first all t) {p : Char → Bool}
    (hp : ∀ c, first c = true → p c = false) (rest : Text) : Stops p (t ++ rest) := by
  obtain ⟨c, hc, hs⟩ := h.head
  have hst : Stops p t := by
    intro d hd
    cases Option.some.inj (hc.symm.trans hd)
    exact hp c hs
  exact hst.append h.ne_nil rest

end Words

/-- An ASCII name. -/
abbrev Identifier : Text → Prop := Word isIdentifierStart isIdentifierChar

theorem isIdentifierChar_of_start {c : Char} (h : isIdentifierStart c = true) :
    isIdentifierChar c = true := by
  simp only [isIdentifierStart, isIdentifierChar, Char.isAlphanum, Bool.or_eq_true] at h ⊢
  exact h.imp_left Or.inl

theorem toNat_of_identifierChar {c : Char} (h : isIdentifierChar c = true) :
    48 ≤ c.toNat ∧ c.toNat ≤ 57 ∨ 65 ≤ c.toNat ∧ c.toNat ≤ 90 ∨ c.toNat = 95 ∨
      97 ≤ c.toNat ∧ c.toNat ≤ 122 := by
  delta isIdentifierChar Char.isAlphanum Char.isAlpha Char.isUpper Char.isLower Char.isDigit at h
  simp only [Bool.or_eq_true, Bool.and_eq_true, decide_eq_true_eq, UInt32.le_iff_toNat_le,
    ge_iff_le] at h
  rcases h with h | rfl
  · have h0 : '0'.val.toNat = 48 := rfl
    have h9 : '9'.val.toNat = 57 := rfl
    have hA : 'A'.val.toNat = 65 := rfl
    have hZ : 'Z'.val.toNat = 90 := rfl
    have ha : 'a'.val.toNat = 97 := rfl
    have hz : 'z'.val.toNat = 122 := rfl
    have hc : c.toNat = c.val.toNat := rfl
    omega
  · decide

theorem not_isBlank_of_identifierChar {c : Char} (h : isIdentifierChar c = true) :
    Text.isBlank c = false := by
  have := toNat_of_identifierChar h
  simp only [Text.isBlank, Bool.or_eq_false_iff, Bool.and_eq_false_iff, decide_eq_false_iff_not,
    beq_eq_false_iff_ne]
  omega

theorem isBlank_of_isIndent {c : Char} (h : isIndent c = true) : Text.isBlank c = true := by
  simp only [isIndent, Bool.or_eq_true, decide_eq_true_eq] at h
  rcases h with rfl | rfl <;> decide

theorem identifier?_eq_some_iff {t name rest : Text} :
    identifier? t = some (name, rest) ↔
      t = name ++ rest ∧ Identifier name ∧ Stops isIdentifierChar rest := by
  have he : identifier? t = word? isIdentifierStart isIdentifierChar t := by
    cases t <;> rfl
  rw [he, word?_eq_some_iff fun _ => isIdentifierChar_of_start]

namespace Span

def IsLabelQuote (quote : Text) : Prop := quote = [] ∨ quote = ['\''] ∨ quote = ['"']

def IsLineEnd (lineEnd : Text) : Prop := lineEnd = ['\n'] ∨ lineEnd = ['\r', '\n']

/-- What opens a heredoc with a label, through the end of its line. -/
def HeredocOpening (label opening : Text) : Prop :=
  ∃ indent quote lineEnd : Text,
    opening = heredocOpening ++ (indent ++ (quote ++ (label ++ (quote ++ lineEnd)))) ∧
      Identifier label ∧ (∀ c ∈ indent, isIndent c = true) ∧ IsLabelQuote quote ∧ IsLineEnd lineEnd

theorem isIndent_of_identifierStart {c : Char} (h : isIdentifierStart c = true) :
    isIndent c = false := by
  by_contra hi
  simp only [isIndent, Bool.not_eq_false, Bool.or_eq_true, decide_eq_true_eq] at hi
  rcases hi with rfl | rfl
  · exact absurd h (by decide)
  · exact absurd h (by decide)

theorem labelQuote_of_quote {quote rest : Text} (h : IsLabelQuote quote) (hr : Identifier rest)
    (rest' : Text) : labelQuote (quote ++ (rest ++ rest')) = quote := by
  rcases h with rfl | rfl | rfl
  · have hs : Stops (fun c => c = '\'' || c = '"') (rest ++ rest') := by
      refine hr.stops (fun c hc => ?_) rest'
      by_contra hq
      simp only [Bool.not_eq_false, Bool.or_eq_true, decide_eq_true_eq] at hq
      rcases hq with rfl | rfl
      · exact absurd hc (by decide)
      · exact absurd hc (by decide)
    rw [List.nil_append]
    cases ht : rest ++ rest' with
    | nil => rfl
    | cons c t => simp [labelQuote, stops_cons.mp (ht ▸ hs)]
  · rfl
  · rfl

theorem isLabelQuote_labelQuote (t : Text) : IsLabelQuote (labelQuote t) := by
  cases t with
  | nil => exact Or.inl rfl
  | cons c t =>
    simp only [labelQuote]
    split
    next h =>
      simp only [Bool.or_eq_true, decide_eq_true_eq] at h
      exact Or.inr (h.imp (congrArg (fun d => [d])) (congrArg (fun d => [d])))
    next => exact Or.inl rfl

theorem labelQuote_append_drop (t : Text) : labelQuote t ++ t.drop (labelQuote t).length = t := by
  cases t with
  | nil => rfl
  | cons c t =>
    simp only [labelQuote]
    split <;> simp

theorem afterLineEnd_eq_some_iff {t body : Text} :
    Text.after? ['\n'] ((Text.after? ['\r'] t).getD t) = some body ↔
      ∃ lineEnd, IsLineEnd lineEnd ∧ t = lineEnd ++ body := by
  constructor
  · intro h
    cases hr : Text.after? ['\r'] t with
    | none =>
      rw [hr] at h
      exact ⟨['\n'], Or.inl rfl, Text.after?_eq_some_iff.mp h⟩
    | some u =>
      rw [hr] at h
      obtain rfl := Text.after?_eq_some_iff.mp hr
      rw [show u = '\n' :: body from Text.after?_eq_some_iff.mp h]
      exact ⟨['\r', '\n'], Or.inr rfl, rfl⟩
  · rintro ⟨lineEnd, rfl | rfl, rfl⟩
    · simp [Text.after?]
    · simp [Text.after?]

theorem heredoc?_eq_some_iff {t label body : Text} :
    heredoc? t = some (label, body) ↔
      ∃ opening, HeredocOpening label opening ∧ t = opening ++ body := by
  constructor
  · intro h
    simp only [heredoc?, Option.bind_eq_bind, Option.bind_eq_some_iff, Option.pure_def] at h
    obtain ⟨u, hu, ⟨name, v⟩, hv, w, hw, x, hx, he⟩ := h
    obtain ⟨rfl, rfl⟩ := Prod.mk.inj (Option.some.inj he)
    obtain ⟨hd, hid, _⟩ := identifier?_eq_some_iff.mp hv
    obtain rfl := Text.after?_eq_some_iff.mp hw
    obtain ⟨lineEnd, hle, rfl⟩ := afterLineEnd_eq_some_iff.mp hx
    have hq := labelQuote_append_drop (Text.trimStartOf isIndent u)
    rw [hd] at hq
    have hu : t = heredocOpening ++ (u.takeWhile isIndent ++ Text.trimStartOf isIndent u) := by
      rw [Text.trimStartOf, List.takeWhile_append_dropWhile]
      exact Text.after?_eq_some_iff.mp hu
    refine ⟨_, ⟨u.takeWhile isIndent, labelQuote (Text.trimStartOf isIndent u), lineEnd, rfl, hid,
      fun c hc => List.mem_takeWhile_imp hc, isLabelQuote_labelQuote _, hle⟩, ?_⟩
    simp only [hu, List.append_assoc, hq]
  · rintro ⟨_, ⟨indent, quote, lineEnd, rfl, hl, hi, hq, he⟩, rfl⟩
    have hindent : Stops isIndent (quote ++ (label ++ (quote ++ (lineEnd ++ body)))) := by
      rcases hq with rfl | rfl | rfl
      · exact hl.stops (fun c hc => isIndent_of_identifierStart hc) _
      · exact stops_cons.mpr (by decide)
      · exact stops_cons.mpr (by decide)
    have hends : Stops isIdentifierChar (quote ++ (lineEnd ++ body)) := by
      rcases hq with rfl | rfl | rfl
      · rcases he with rfl | rfl <;> exact stops_cons.mpr (by decide)
      · exact stops_cons.mpr (by decide)
      · exact stops_cons.mpr (by decide)
    have htrim := dropWhile_run hi hindent
    have hname := identifier?_eq_some_iff.mpr ⟨rfl, hl, hends⟩
    have hline : Text.after? ['\n']
        ((Text.after? ['\r'] (lineEnd ++ body)).getD (lineEnd ++ body)) = some body :=
      afterLineEnd_eq_some_iff.mpr ⟨lineEnd, he, rfl⟩
    simp only [List.append_assoc, heredoc?, Text.after?_eq_some_iff.mpr rfl, Text.trimStartOf,
      htrim, labelQuote_of_quote hq hl, List.drop_left, hname, hline, Option.bind_eq_bind,
      Option.bind_some, Option.pure_def]

end Span

end AnnotatedRoutes.Source
