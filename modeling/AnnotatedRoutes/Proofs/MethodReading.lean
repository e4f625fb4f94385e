import AnnotatedRoutes.Proofs.DeclarationSearch
import AnnotatedRoutes.Source.Method

namespace AnnotatedRoutes.Source

theorem solid_methodModifiers : ∀ k ∈ methodModifiers, Solid k := by decide

def functionKeyword : Text := "function".toList

/-- The sign of a method that returns a reference, with the blanks after it. -/
def IsSign (sign : Text) : Prop := sign = [] ∨ ∃ blanks, sign = '&' :: blanks ∧ Blank blanks

/-- The keywords, the name and the opening parenthesis of a method. -/
def MethodHead (modifiers : List Text) (name head : Text) : Prop :=
  ∃ run blanks sign gap : Text,
    head = run ++ (functionKeyword ++ (blanks ++ (sign ++ (name ++ (gap ++ ['(']))))) ∧
      KeywordRun methodModifiers modifiers run ∧ blanks ≠ [] ∧ Blank blanks ∧ IsSign sign ∧
      Identifier name ∧ Blank gap

theorem MethodHead.identifier {modifiers : List Text} {name head : Text}
    (h : MethodHead modifiers name head) : Identifier name := by
  obtain ⟨_, _, _, _, -, -, -, -, -, hn, -⟩ := h
  exact hn

theorem exists_of_afterSign (sign : Char) (t : Text) :
    ∃ u, t = u ++ afterSign sign t ∧ (u = [] ∨ ∃ blanks, u = sign :: blanks ∧ Blank blanks) := by
  cases t with
  | nil => exact ⟨[], rfl, Or.inl rfl⟩
  | cons c t =>
    simp only [afterSign]
    split
    next hc =>
      subst hc
      refine ⟨c :: t.takeWhile Text.isBlank, ?_, Or.inr ⟨_, rfl, ?_⟩⟩
      · simp [Text.trimStart, Text.trimStartOf]
      · exact fun d hd => List.mem_takeWhile_imp hd
    next => exact ⟨[], rfl, Or.inl rfl⟩

theorem exists_of_methodAt? {offset : Nat} {line : Text} {m : MethodDeclaration}
    (h : methodAt? offset line = some m) :
    ∃ indent head rest, line = indent ++ (head ++ rest) ∧ (∀ c ∈ indent, isIndent c = true) ∧
      MethodHead m.modifiers m.name head ∧ m.start = offset ∧
      m.length = indent.length + head.length := by
  simp only [methodAt?, Option.bind_eq_bind, Option.bind_eq_some_iff] at h
  obtain ⟨t, ht, ⟨name, u⟩, hu, rest, hr, hm⟩ := h
  obtain ⟨run, hrun, hk, -⟩ :=
    exists_of_keywordRun methodModifiers (Text.trimStartOf isIndent line)
  have ht : afterKeyword? functionKeyword _ = some t := ht
  obtain ⟨blanks, hb, hne, hbl, -⟩ := afterKeyword?_eq_some_iff.mp ht
  obtain ⟨sign, hs, hsign⟩ := exists_of_afterSign '&' t
  obtain ⟨hn, hid, -⟩ := identifier?_eq_some_iff.mp hu
  have hgap : u = u.takeWhile Text.isBlank ++ ('(' :: rest) := by
    rw [show '(' :: rest = Text.trimStart u from (Text.after?_eq_some_iff.mp hr).symm,
      Text.trimStart, Text.trimStartOf, List.takeWhile_append_dropWhile]
  have hline : line = line.takeWhile isIndent ++ Text.trimStartOf isIndent line :=
    List.takeWhile_append_dropWhile.symm
  rw [hrun, hb, hs, hn, hgap] at hline
  obtain rfl := Option.some.inj hm
  refine ⟨line.takeWhile isIndent, _, rest, ?_, fun c hc => List.mem_takeWhile_imp hc,
    ⟨run, blanks, sign, u.takeWhile Text.isBlank, rfl, hk, hne, hbl, hsign, hid,
      fun c hc => List.mem_takeWhile_imp hc⟩, rfl, ?_⟩
  · simpa only [List.append_assoc, List.singleton_append] using hline
  · have hlen := congrArg List.length hline
    simp only [List.length_append, List.length_cons, List.length_nil] at hlen ⊢
    omega

theorem MethodHead.not_mem {modifiers : List Text} {name head : Text}
    (h : MethodHead modifiers name head) {c : Char}
    (hw : ∀ k ∈ functionKeyword :: methodModifiers, c ∉ k) (hb : Text.isBlank c = false)
    (hi : isIdentifierChar c = false) (hs : c ≠ '&') (hp : c ≠ '(') : c ∉ head := by
  obtain ⟨run, blanks, sign, gap, rfl, hk, -, hbl, hsign, hn, hg⟩ := h
  obtain ⟨hf, hm⟩ := List.forall_mem_cons.mp hw
  have hblank : ∀ {t : Text}, Blank t → c ∉ t := fun ht hm => by simp [ht c hm] at hb
  have hsign : c ∉ sign := by
    rcases hsign with rfl | ⟨blanks, rfl, hbl⟩
    · simp
    · simpa [hs] using hblank hbl
  have hname : c ∉ name := fun hm => by simp [hn.all c hm] at hi
  simp only [List.mem_append, List.mem_singleton, not_or]
  exact ⟨hk.not_mem hm hb, hf, hblank hbl, hsign, hname, hblank hg, hp⟩

/-- A declaration has no brace between its keywords, its name and its parenthesis. -/
theorem MethodHead.not_mem_brace {modifiers : List Text} {name head : Text}
    (h : MethodHead modifiers name head) : '{' ∉ head ∧ '}' ∉ head :=
  ⟨h.not_mem (by decide) (by decide) (by decide) (by decide) (by decide),
    h.not_mem (by decide) (by decide) (by decide) (by decide) (by decide)⟩

/-- The first modifier of a method, or else the keyword of functions. -/
def MethodDeclaration.firstKeyword (m : MethodDeclaration) : Text :=
  m.modifiers.headD functionKeyword

theorem MethodHead.firstKeyword_prefix {m : MethodDeclaration} {head : Text}
    (h : MethodHead m.modifiers m.name head) : m.firstKeyword <+: head := by
  obtain ⟨run, blanks, sign, gap, rfl, hk, -⟩ := h
  rw [MethodDeclaration.firstKeyword]
  generalize m.modifiers = modifiers at hk
  cases hk with
  | nil => exact List.prefix_append functionKeyword _
  | @cons k ks _ _ _ _ _ _ =>
    rw [List.append_assoc]
    exact List.prefix_append k _

theorem MethodHead.firstKeyword_mem {m : MethodDeclaration} {head : Text}
    (h : MethodHead m.modifiers m.name head) :
    m.firstKeyword ∈ functionKeyword :: methodModifiers := by
  obtain ⟨run, blanks, sign, gap, rfl, hk, -⟩ := h
  rw [MethodDeclaration.firstKeyword]
  generalize m.modifiers = modifiers at hk
  cases hk with
  | nil => exact List.mem_cons_self
  | cons hm _ _ _ => exact List.mem_cons_of_mem _ hm

theorem head?_of_mem_keywords {k : Text} (h : k ∈ functionKeyword :: methodModifiers) :
    ∃ c, k.head? = some c ∧ isIdentifierChar c = true := by
  have hall : ∀ k ∈ functionKeyword :: methodModifiers, k.head?.any isIdentifierChar = true := by
    decide
  exact (Option.any_eq_true _ _).mp (hall k h)

theorem MethodHead.exists_first {modifiers : List Text} {name head : Text}
    (h : MethodHead modifiers name head) :
    ∃ c, head.head? = some c ∧ isIdentifierChar c = true := by
  let m : MethodDeclaration := ⟨modifiers, name, 0, 0⟩
  obtain ⟨c, hc, hid⟩ := head?_of_mem_keywords (firstKeyword_mem (m := m) h)
  obtain ⟨u, rfl⟩ := firstKeyword_prefix (m := m) h
  exact ⟨c, by rw [List.head?_append, hc, Option.some_or], hid⟩

theorem not_isIndent_of_identifierChar {c : Char} (h : isIdentifierChar c = true) :
    isIndent c = false := by
  by_contra hi
  rw [Bool.not_eq_false] at hi
  exact absurd (isBlank_of_isIndent hi) (by simp [not_isBlank_of_identifierChar h])

theorem MethodHead.stops_isIndent {modifiers : List Text} {name head : Text}
    (h : MethodHead modifiers name head) (rest : Text) : Stops isIndent (head ++ rest) := by
  obtain ⟨c, hc, hid⟩ := h.exists_first
  intro d hd
  rw [List.head?_append, hc, Option.some_or] at hd
  obtain rfl := Option.some.inj hd
  exact not_isIndent_of_identifierChar hid

theorem anyKeyword?_functionKeyword (t : Text) :
    anyKeyword? methodModifiers (functionKeyword ++ t) = none := by
  rfl

theorem Word.head_ne {t : Text} (h : Identifier t) {c : Char}
    (hc : isIdentifierStart c = false) (rest : Text) : (t ++ rest).head? ≠ some c := by
  obtain ⟨d, hd, hs⟩ := h.head
  rw [List.head?_append, hd, Option.some_or]
  rintro ⟨⟩
  exact absurd hs (by simp [hc])

theorem afterSign_of_isSign {sign name rest : Text} (hs : IsSign sign) (hn : Identifier name) :
    afterSign '&' (sign ++ (name ++ rest)) = name ++ rest := by
  rcases hs with rfl | ⟨blanks, rfl, hb⟩
  · have hne := hn.head_ne (c := '&') (by decide) rest
    rw [List.nil_append]
    cases ht : name ++ rest with
    | nil => rfl
    | cons d t =>
      rw [ht] at hne
      have hd : d ≠ '&' := fun h => hne (by rw [h]; rfl)
      rw [afterSign, if_neg hd]
  · rw [List.cons_append, afterSign, if_pos rfl]
    exact dropWhile_run hb (hn.stops_isBlank rest)

/-- Every declaration that a line begins with is read. -/
theorem methodAt?_of_head {indent head name : Text} {modifiers : List Text} (offset : Nat)
    (hi : ∀ c ∈ indent, isIndent c = true) (hh : MethodHead modifiers name head) (rest : Text) :
    methodAt? offset (indent ++ (head ++ rest)) =
      some ⟨modifiers, name, offset, indent.length + head.length⟩ := by
  have htrim := dropWhile_run hi (hh.stops_isIndent rest)
  obtain ⟨run, blanks, sign, gap, rfl, hk, hne, hb, hs, hn, hg⟩ := hh
  have hstop : Stops Text.isBlank (sign ++ (name ++ (gap ++ '(' :: rest))) := by
    rcases hs with rfl | ⟨blanks, rfl, -⟩
    · exact hn.stops_isBlank _
    · exact stops_cons.mpr (by decide)
  have hfunction : Stops Text.isBlank
      (functionKeyword ++ (blanks ++ (sign ++ (name ++ (gap ++ '(' :: rest))))) :=
    stops_cons.mpr (by decide)
  have hrun := keywordRun_append solid_methodModifiers hk hfunction (anyKeyword?_functionKeyword _)
  have hkey : afterKeyword? "function".toList
      (functionKeyword ++ (blanks ++ (sign ++ (name ++ (gap ++ '(' :: rest))))) =
        some (sign ++ (name ++ (gap ++ '(' :: rest))) :=
    afterKeyword?_eq_some_iff.mpr ⟨blanks, rfl, hne, hb, hstop⟩
  have hend : Stops isIdentifierChar (gap ++ '(' :: rest) :=
    (hg.stops fun _ => not_isBlank_of_identifierChar).append_stops (stops_cons.mpr (by decide))
  have hname := identifier?_eq_some_iff.mpr ⟨rfl, hn, hend⟩
  have hgap : Text.trimStart (gap ++ '(' :: rest) = '(' :: rest :=
    dropWhile_run hg (stops_cons.mpr (by decide))
  have hafter : Text.after? ['('] ('(' :: rest) = some rest := Text.after?_eq_some_iff.mpr rfl
  simp only [List.append_assoc, List.singleton_append] at htrim ⊢
  simp only [methodAt?, Text.trimStartOf, htrim, hrun, hkey, afterSign_of_isSign hs hn, hname, hgap,
    hafter, Option.bind_eq_bind, Option.bind_some]
  congr 2
  simp only [List.length_append, List.length_cons, List.length_nil]
  omega

theorem of_mem_methodsFrom {offset skip : Nat} {lineStart : Bool} {t : Text} {m : MethodDeclaration}
    (h : m ∈ methodsFrom offset skip lineStart t) :
    ∃ before line, t = before ++ line ∧ StartsLine lineStart t before.length ∧
      m.start = offset + before.length ∧ methodAt? m.start line = some m := by
  induction t generalizing offset skip lineStart with
  | nil => simp [methodsFrom] at h
  | cons c t ih =>
    have later : ∀ {skip : Nat}, m ∈ methodsFrom (offset + 1) skip (c = '\n') t →
        ∃ before line, c :: t = before ++ line ∧ StartsLine lineStart (c :: t) before.length ∧
          m.start = offset + before.length ∧ methodAt? m.start line = some m := by
      intro skip h
      obtain ⟨before, line, rfl, hl, hs, hm⟩ := ih h
      exact ⟨c :: before, line, rfl, startsLine_cons_succ.mpr hl,
        by rw [hs, List.length_cons]; omega, hm⟩
    cases skip with
    | succ skip => exact later h
    | zero =>
      simp only [methodsFrom] at h
      split at h
      next => exact later h
      next d hd =>
        rcases List.mem_cons.mp h with rfl | h
        · split at hd
          next hl =>
            obtain ⟨_, _, _, _, _, _, hs, _⟩ := exists_of_methodAt? hd
            exact ⟨[], c :: t, rfl, hl, hs, hs ▸ hd⟩
          next => simp at hd
        · exact later h

end AnnotatedRoutes.Source
