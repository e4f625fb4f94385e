import AnnotatedRoutes.Proofs.CommentClosing
import AnnotatedRoutes.Proofs.DocblockLookup
import AnnotatedRoutes.Proofs.DocblockRoundTrip
import AnnotatedRoutes.Proofs.SelfContained

namespace AnnotatedRoutes

namespace Docblock

theorem indexOf?_closing {t : Text} (h : ¬ closing <:+: t ++ ['*']) (rest : Text) :
    Text.indexOf? closing (t ++ (closing ++ rest)) = some t.length := by
  induction t with
  | nil => exact Text.indexOf?_cons_of_starts (List.prefix_append closing rest)
  | cons c t ih =>
    have hp : ¬ closing <+: c :: (t ++ (closing ++ rest)) := by
      intro hp
      have hsplit : c :: (t ++ (closing ++ rest)) = (c :: t ++ ['*']) ++ ('/' :: rest) := by
        simp [closing]
      rw [hsplit, Text.prefix_append_iff (by simp [closing])] at hp
      exact h hp.isInfix
    have ht : ¬ closing <:+: t ++ ['*'] := fun hi => h (hi.trans (List.suffix_cons c _).isInfix)
    rw [List.cons_append, Text.indexOf?_cons_of_not_starts hp, ih ht]
    rfl

theorem join_newline (first last : Text) (middle : List Text) :
    Text.join ['\n'] (first :: middle ++ [last]) =
      first ++ (middle.flatMap ('\n' :: ·) ++ '\n' :: last) := by
  induction middle generalizing first with
  | nil => simp [Text.join]
  | cons t middle ih =>
    have hj : Text.join ['\n'] (first :: t :: middle ++ [last]) =
        first ++ ['\n'] ++ Text.join ['\n'] (t :: middle ++ [last]) := by
      rfl
    rw [hj, ih]
    simp

/-- What stands between the delimiters of a printed docblock. -/
def inside (texts : List Text) : Text :=
  '*' :: (texts.flatMap (fun t => '\n' :: (gutter ++ t)) ++ ['\n', ' '])

theorem print_eq (texts : List Text) : print texts = '/' :: '*' :: (inside texts ++ closing) := by
  rw [print, join_newline, List.flatMap_map, inside]
  have ho : opening = ['/', '*', '*'] := by decide
  simp [ho]

theorem not_closing_infix_lines {texts : List Text} (h : ∀ t ∈ texts, ¬ closing <:+: t) :
    ¬ closing <:+: texts.flatMap (fun t => '\n' :: (gutter ++ t)) ++ ['\n', ' ', '*'] := by
  induction texts with
  | nil => decide
  | cons t texts ih =>
    obtain ⟨ht, hs⟩ := List.forall_mem_cons.mp h
    have hrest := ih hs
    obtain ⟨v, hv⟩ : ∃ v, texts.flatMap (fun t => '\n' :: (gutter ++ t)) ++ ['\n', ' ', '*'] =
        '\n' :: v := by
      cases texts with
      | nil => exact ⟨_, rfl⟩
      | cons t texts => exact ⟨_, rfl⟩
    rw [List.flatMap_cons, List.append_assoc, hv]
    rw [hv] at hrest
    -- a line feed or a blank stands between any two pieces
    intro hi
    rcases closing_infix_append_cons (u := []) (by decide) (by decide) hi with hi | hi
    · exact absurd hi (by decide)
    rcases closing_infix_append_cons (u := []) (by decide) (by decide) hi with hi | hi
    · exact absurd hi (by decide)
    rcases closing_infix_append_cons (u := ['*']) (by decide) (by decide) hi with hi | hi
    · exact absurd hi (by decide)
    rcases closing_infix_append_cons (u := t) (by decide) (by decide) hi with hi | hi
    · exact ht hi
    · exact hrest (hi.trans (List.suffix_cons _ v).isInfix)

theorem not_closing_infix_inside {texts : List Text} (h : ∀ t ∈ texts, ¬ closing <:+: t) :
    ¬ closing <:+: inside texts ++ ['*'] := by
  intro hi
  have he : inside texts ++ ['*'] =
      '*' :: (texts.flatMap (fun t => '\n' :: (gutter ++ t)) ++ ['\n', ' ', '*']) := by
    simp [inside]
  rw [he] at hi
  rcases List.infix_cons_iff.mp hi with hp | hi
  · cases texts with
    | nil => exact absurd hp (by decide)
    | cons t texts =>
      exact absurd (List.cons_prefix_cons.mp (List.cons_prefix_cons.mp hp).2).1 (by decide)
  · exact not_closing_infix_lines h hi

end Docblock

namespace Source

/-- The lines of a docblock, if there is one. -/
def docblockLines : Option (List Text) → Text
  | none => []
  | some texts => Docblock.print texts ++ ['\n']

/-- The text of a docblock; empty if there is none. -/
def docblockText (docblock : Option (List Text)) : Text := (docblock.map Docblock.print).getD []

/-- No line closes the docblock. -/
def ClosingFree (docblock : Option (List Text)) : Prop :=
  ∀ texts ∈ docblock, ∀ t ∈ texts, ¬ Docblock.closing <:+: t

instance (docblock : Option (List Text)) : Decidable (ClosingFree docblock) :=
  inferInstanceAs (Decidable (∀ texts ∈ docblock, ∀ t ∈ texts, ¬ Docblock.closing <:+: t))

theorem opens_docblock {texts : List Text} (h : ∀ t ∈ texts, ¬ Docblock.closing <:+: t)
    (rest : Text) :
    Span.Opens (Docblock.print texts ++ rest) .block (Docblock.print texts).length := by
  have hlen : Span.blockLength (Docblock.inside texts ++ (Docblock.closing ++ rest)) + 2 =
      (Docblock.print texts).length := by
    rw [Span.blockLength, Docblock.indexOf?_closing (Docblock.not_closing_infix_inside h),
      Docblock.print_eq]
    simp
  rw [← hlen, Docblock.print_eq, List.cons_append, List.cons_append, List.append_assoc]
  exact .block _

theorem selfContained_docblock {texts : List Text} (h : ∀ t ∈ texts, ¬ Docblock.closing <:+: t) :
    SelfContained (Docblock.print texts) :=
  selfContained_of_opens (opens_docblock h)

/-- A printed docblock is masked completely. -/
theorem of_mem_masked_docblock {texts : List Text} (h : ∀ t ∈ texts, ¬ Docblock.closing <:+: t)
    {c : Char} (hc : c ∈ masked (Docblock.print texts)) : c = ' ' ∨ c = '\n' := by
  obtain ⟨i, hi⟩ := List.mem_iff_getElem?.mp hc
  rw [getElem?_masked, scan_of_opens_self (opens_docblock h)] at hi
  obtain ⟨d, hd, rfl⟩ := Option.map_eq_some_iff.mp hi
  have hlt := (List.getElem?_eq_some_iff.mp hd).1
  by_cases hn : d = '\n'
  · simp [hn]
  · simp [hn, Span.covers_iff, hlt]

theorem code_newline : Code ['\n'] := by decide

theorem selfContained_docblockLines {docblock : Option (List Text)} (h : ClosingFree docblock) :
    SelfContained (docblockLines docblock) := by
  cases docblock with
  | none => exact selfContained_nil
  | some texts => exact (selfContained_docblock (h texts rfl)).append code_newline.selfContained

theorem masked_docblockLines {docblock : Option (List Text)} (h : ClosingFree docblock) :
    masked (docblockLines docblock) = [] ∨
      ∃ u, masked (docblockLines docblock) = u ++ ['\n'] ∧ ∀ c ∈ u, c = ' ' ∨ c = '\n' := by
  cases docblock with
  | none => exact Or.inl rfl
  | some texts =>
    refine Or.inr ⟨masked (Docblock.print texts), ?_,
      fun c hc => of_mem_masked_docblock (h texts rfl) hc⟩
    rw [docblockLines, (selfContained_docblock (h texts rfl)).masked_append, code_newline.masked_eq]

/-- What ends with code, or holds nothing at all. -/
def Undocumented (t : Text) : Prop :=
  Blank t ∨ ∃ before c gap, t = before ++ [c] ++ gap ∧ Text.isBlank c = false ∧ c ≠ ']' ∧ c ≠ '/' ∧
    Blank gap

/-- The span of a docblock that is printed behind a text. -/
def docblockSpan (before : Text) (texts : List Text) : Span :=
  ⟨.block, before.length, before.length + (Docblock.print texts).length⟩

theorem lastBefore_docblockSpan {before : Text} {texts : List Text} (hs : SelfContained before)
    (h : ∀ t ∈ texts, ¬ Docblock.closing <:+: t) (rest : Text) :
    lastBefore (docblockSpan before texts).stop
      (Span.scan (before ++ (Docblock.print texts ++ rest))) =
        some (docblockSpan before texts) := by
  have hscan : Span.scan (before ++ (Docblock.print texts ++ rest)) = Span.scan before ++
      docblockSpan before texts ::
        (Span.scan rest).map (Span.shift (docblockSpan before texts).stop) := by
    rw [hs, Span.scan_of_opens (opens_docblock h _), List.drop_left, List.map_cons,
      Span.map_shift_shift]
    simp [Span.shift, docblockSpan, Nat.add_comm]
  have hmem : docblockSpan before texts ∈ Span.scan (before ++ (Docblock.print texts ++ rest)) := by
    rw [hscan]
    exact List.mem_append_right _ List.mem_cons_self
  exact Span.lastBefore_of_mem hmem

theorem docblock_docblockSpan {before : Text} {texts : List Text} {rest : Text} :
    (docblockSpan before texts).docblock (before ++ (Docblock.print texts ++ rest)) =
      Docblock.print texts := by
  have htake : (before ++ (Docblock.print texts ++ rest)).take (docblockSpan before texts).stop =
      before ++ Docblock.print texts := by
    rw [docblockSpan, ← List.length_append, ← List.append_assoc, List.take_left]
  have hlen : shortestDocblock ≤ (Docblock.print texts).length := by
    have hs : shortestDocblock = 5 := by decide
    rw [Docblock.print_eq, Docblock.inside, hs]
    simp [Span.length_closing]
  have hopen : Text.startsWith (Docblock.print texts) Docblock.opening = true := by
    rw [Docblock.print_eq, Docblock.inside]
    rfl
  have hdoc : isDocblockEnding (before ++ Docblock.print texts)
      (docblockSpan before texts).stop (docblockSpan before texts) = true := by
    simp [isDocblockEnding, docblockSpan, hlen, hopen]
  rw [Span.docblock, htake, if_pos hdoc, docblockSpan, slice_append]

/-- A printed docblock is the one before what follows its last line. -/
theorem precedingDocblock_docblockLines {source before rest : Text} {docblock : Option (List Text)}
    (hs : SelfContained before) (hu : Undocumented before) (ho : ClosingFree docblock)
    (h : source = before ++ (docblockLines docblock ++ rest)) :
    precedingDocblock source (before.length + (docblockLines docblock).length)
      (Span.scan source) = docblockText docblock := by
  subst h
  have htake : (before ++ (docblockLines docblock ++ rest)).take
      (before.length + (docblockLines docblock).length) = before ++ docblockLines docblock := by
    rw [← List.length_append, ← List.append_assoc, List.take_left]
  cases docblock with
  | none =>
    rw [docblockLines, List.append_nil] at htake
    rcases hu with hb | ⟨code, c, gap, hcode, hc, hb, hsl, hg⟩
    · exact precedingDocblock_of_blank (by rwa [docblockLines, htake]) _
    · exact precedingDocblock_of_code hc hb hsl hg (htake.trans hcode) _
  | some texts =>
    have ht := ho texts rfl
    have he : before ++ (docblockLines (some texts) ++ rest) =
        before ++ (Docblock.print texts ++ '\n' :: rest) := by
      simp [docblockLines]
    have hlast := lastBefore_docblockSpan hs ht ('\n' :: rest)
    rw [← he] at hlast
    have hcl : Docblock.closing <:+ before ++ Docblock.print texts := by
      rw [Docblock.print_eq, ← List.cons_append, ← List.cons_append, ← List.append_assoc]
      exact List.suffix_append _ _
    have hgap : Blank ['\n'] := by simp [Blank, Text.isBlank]
    rw [precedingDocblock_of_block hgap (htake.trans (List.append_assoc _ _ _).symm)
      (List.length_append).symm hcl hlast, he]
    exact docblock_docblockSpan

end Source

end AnnotatedRoutes
