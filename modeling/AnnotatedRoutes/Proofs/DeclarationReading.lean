import AnnotatedRoutes.Proofs.DeclarationSearch

namespace AnnotatedRoutes.Source

theorem Span.IsOpening.not_isBlank {c : Char} (h : Span.IsOpening c) : Text.isBlank c = false := by
  rcases h with rfl | rfl | rfl | rfl | rfl <;> decide

theorem Span.IsOpening.not_isWordChar {c : Char} (h : Span.IsOpening c) :
    Text.isWordChar c = false := by
  rcases h with rfl | rfl | rfl | rfl | rfl <;> decide

def classKeyword : Text := "class".toList

/-- The keywords and the name of a class. -/
def ClassHead (name head : Text) : Prop :=
  ∃ modifiers run blanks, head = run ++ (classKeyword ++ (blanks ++ name)) ∧
    KeywordRun classModifiers modifiers run ∧ blanks ≠ [] ∧ Blank blanks ∧ Identifier name

theorem solid_classModifiers : ∀ k ∈ classModifiers, Solid k := by decide

theorem solid_classKeyword : Solid classKeyword := by decide

theorem anyKeyword?_classKeyword (t : Text) :
    anyKeyword? classModifiers (classKeyword ++ t) = none := by
  rfl

theorem isWordChar_of_identifierChar {c : Char} (h : isIdentifierChar c = true) :
    Text.isWordChar c = true := by
  have := toNat_of_identifierChar h
  obtain ⟨ranges, hr⟩ : ∃ ranges,
      Text.wordRanges = (48, 57) :: (65, 90) :: (95, 95) :: (97, 122) :: ranges := ⟨_, rfl⟩
  rw [Text.isWordChar, hr]
  simp only [Text.CodeRanges.has]
  grind

theorem ClassHead.ne_nil {name head : Text} (h : ClassHead name head) : head ≠ [] := by
  obtain ⟨_, run, blanks, rfl, -⟩ := h
  simp [classKeyword]

theorem ClassHead.stops_isBlank {name head : Text} (h : ClassHead name head) :
    Stops Text.isBlank head := by
  obtain ⟨_, run, blanks, rfl, hk, -⟩ := h
  exact hk.stops solid_classModifiers (solid_classKeyword.stops _)

theorem ClassHead.not_isOpening {name head : Text} (h : ClassHead name head) :
    ∀ c ∈ head, ¬ Span.IsOpening c := by
  obtain ⟨_, run, blanks, rfl, hk, -, hb, hn⟩ := h
  intro c hc ho
  have hkeys : (∀ k ∈ classModifiers, c ∉ k) ∧ c ∉ classKeyword := by
    rcases ho with rfl | rfl | rfl | rfl | rfl <;> decide
  have hrun := hk.not_mem hkeys.1 ho.not_isBlank
  have hblank : c ∉ blanks := fun hc => absurd (hb c hc) (by simp [ho.not_isBlank])
  have hname : c ∉ name := fun hc =>
    absurd (isWordChar_of_identifierChar (hn.all c hc)) (by simp [ho.not_isWordChar])
  simp [hrun, hkeys.2, hblank, hname] at hc

theorem ClassHead.identifier {name head : Text} (h : ClassHead name head) : Identifier name := by
  obtain ⟨_, _, _, -, -, -, -, hn⟩ := h
  exact hn

theorem exists_of_classAt? {offset : Nat} {line : Text} {d : ClassDeclaration}
    (h : classAt? offset line = some d) :
    ∃ indent head rest, line = indent ++ (head ++ rest) ∧ Blank indent ∧ ClassHead d.name head ∧
      Stops Text.isWordChar rest ∧ d.start = offset + indent.length ∧
      d.stop = d.start + head.length := by
  simp only [classAt?, Option.bind_eq_bind, Option.bind_eq_some_iff] at h
  obtain ⟨t, ht, ⟨name, rest⟩, hu, h⟩ := h
  split at h
  next hw =>
    have ht : afterKeyword? classKeyword _ = some t := ht
    obtain ⟨run, hrun, hk, -⟩ := exists_of_keywordRun classModifiers (Text.trimStart line)
    obtain ⟨blanks, hb, hne, hbl, -⟩ := afterKeyword?_eq_some_iff.mp ht
    obtain ⟨hn, hid, -⟩ := identifier?_eq_some_iff.mp hu
    have hline : line = line.takeWhile Text.isBlank ++ Text.trimStart line :=
      List.takeWhile_append_dropWhile.symm
    have hlen := congrArg List.length hline
    rw [hrun, hb, hn] at hline
    have hrest := congrArg List.length hline
    obtain rfl := Option.some.inj h
    refine ⟨line.takeWhile Text.isBlank, _, rest, ?_, fun c hc => List.mem_takeWhile_imp hc,
      ⟨_, run, blanks, rfl, hk, hne, hbl, hid⟩, Span.stops_isWordChar_iff.mpr hw, ?_, ?_⟩
    · simpa only [List.append_assoc] using hline
    · simp only [List.length_append] at hlen ⊢
      omega
    · simp only [List.length_append] at hlen hrest ⊢
      omega
  next => simp at h

/-- Every class declaration that a line begins with is read. -/
theorem classAt?_of_head {indent head rest name : Text} (offset : Nat) (hi : Blank indent)
    (hh : ClassHead name head) (hw : Stops Text.isWordChar rest) :
    classAt? offset (indent ++ (head ++ rest)) =
      some ⟨name, offset + indent.length, offset + indent.length + head.length⟩ := by
  obtain ⟨modifiers, run, blanks, rfl, hk, hne, hb, hn⟩ := hh
  have hword : Stops Text.isBlank (classKeyword ++ (blanks ++ (name ++ rest))) :=
    solid_classKeyword.stops _
  have htrim := dropWhile_run hi (hk.stops solid_classModifiers hword)
  have hrun := keywordRun_append solid_classModifiers hk hword (anyKeyword?_classKeyword _)
  have hclass : afterKeyword? "class".toList (classKeyword ++ (blanks ++ (name ++ rest))) =
      some (name ++ rest) :=
    afterKeyword?_eq_some_iff.mpr ⟨blanks, rfl, hne, hb, hn.stops_isBlank rest⟩
  have hname := identifier?_eq_some_iff.mpr
    ⟨rfl, hn, hw.mono fun _ => isWordChar_of_identifierChar⟩
  simp only [List.append_assoc, classAt?, Text.trimStart, Text.trimStartOf, htrim, hrun, hclass,
    hname, Span.stops_isWordChar_iff.mp hw, Option.bind_eq_bind, Option.bind_some, if_true]
  simp only [List.length_append]
  congr 2 <;> omega

theorem classAt?_eq_some_iff {offset : Nat} {line : Text} {d : ClassDeclaration} :
    classAt? offset line = some d ↔
      ∃ indent head rest, line = indent ++ (head ++ rest) ∧ Blank indent ∧ ClassHead d.name head ∧
        Stops Text.isWordChar rest ∧ d.start = offset + indent.length ∧
        d.stop = d.start + head.length := by
  refine ⟨exists_of_classAt?, ?_⟩
  rintro ⟨indent, head, rest, rfl, hi, hh, hw, hs, he⟩
  rw [classAt?_of_head offset hi hh hw, ← hs, ← he]

def ClassDeclaration.site (d : ClassDeclaration) : Declaration := ⟨d.name, d.start, d.stop⟩

theorem ClassDeclaration.site_injective : Function.Injective ClassDeclaration.site := by
  rintro ⟨_, _, _⟩ ⟨_, _, _⟩ h
  cases h
  rfl

theorem map_site_eq_some_iff {found : Option ClassDeclaration} {d : Declaration} :
    found.map ClassDeclaration.site = some d ↔ found = some ⟨d.name, d.start, d.stop⟩ := by
  constructor
  · intro h
    obtain ⟨a, ha, rfl⟩ := Option.map_eq_some_iff.mp h
    exact ha
  · rintro rfl
    rfl

def classForm : DeclarationForm where
  read offset line := (classAt? offset line).map ClassDeclaration.site
  Head := ClassHead
  continues := Text.isWordChar
  read_eq_some_iff {offset line d} := by
    rw [map_site_eq_some_iff, classAt?_eq_some_iff]
  head_ne_nil := ClassHead.ne_nil
  stops_isBlank := ClassHead.stops_isBlank
  not_isOpening := ClassHead.not_isOpening
  isWordChar_of_continues := id

/-- A name made of identifiers and the characters between them. -/
abbrev NamespacePath : Text → Prop := Word isNamespaceStart isNamespaceChar

def namespaceKeyword : Text := "namespace".toList

def IsClosingSign (c : Char) : Prop := c = ';' ∨ c = '{'

/-- The keyword, the name and the closing sign of a namespace declaration. -/
def NamespaceHead (name head : Text) : Prop :=
  ∃ blanks gap sign, head = namespaceKeyword ++ (blanks ++ (name ++ (gap ++ [sign]))) ∧
    blanks ≠ [] ∧ Blank blanks ∧ NamespacePath name ∧ Blank gap ∧ IsClosingSign sign

theorem NamespaceHead.path {name head : Text} (h : NamespaceHead name head) :
    NamespacePath name := by
  obtain ⟨_, _, _, -, -, -, hn, -⟩ := h
  exact hn

/-- What follows the sign that closes a namespace declaration. -/
def afterClosingSign? : Text → Option Text
  | [] => none
  | c :: t => if c = ';' || c = '{' then some t else none

/-- The namespace declaration on a line that begins at `offset`, through its closing sign. -/
def namespaceDeclarationAt? (offset : Nat) (line : Text) : Option Declaration := do
  let declaration := Text.trimStart line
  let t ← afterKeyword? "namespace".toList declaration
  let (name, t) ← word? isNamespaceStart isNamespaceChar t
  let rest ← afterClosingSign? (Text.trimStart t)
  some ⟨name, offset + (line.length - declaration.length), offset + (line.length - rest.length)⟩

theorem namespaceAt?_eq (offset : Nat) (line : Text) :
    namespaceAt? line = (namespaceDeclarationAt? offset line).map (·.name) := by
  unfold namespaceAt? namespaceDeclarationAt?
  dsimp only
  generalize afterKeyword? "namespace".toList (Text.trimStart line) = found
  cases found with
  | none => rfl
  | some u =>
    cases u with
    | nil => rfl
    | cons c t =>
      rw [Option.bind_eq_bind, Option.bind_some, word?]
      dsimp only
      split
      next =>
        rw [Option.bind_eq_bind, Option.bind_some]
        dsimp only
        cases Text.trimStart (t.dropWhile isNamespaceChar) with
        | nil => rfl
        | cons d rest =>
          rw [afterClosingSign?]
          dsimp only
          split <;> rfl
      next => rfl

theorem solid_namespaceKeyword : Solid namespaceKeyword := by decide

theorem isNamespaceChar_of_start {c : Char} (h : isNamespaceStart c = true) :
    isNamespaceChar c = true := by
  simp only [isNamespaceStart, isNamespaceChar, Bool.or_eq_true] at h ⊢
  exact h.imp_left isIdentifierChar_of_start

theorem not_isBlank_of_namespaceChar {c : Char} (h : isNamespaceChar c = true) :
    Text.isBlank c = false := by
  simp only [isNamespaceChar, Bool.or_eq_true, decide_eq_true_eq] at h
  rcases h with h | rfl
  · exact not_isBlank_of_identifierChar h
  · decide

theorem Span.IsOpening.not_isNamespaceChar {c : Char} (h : Span.IsOpening c) :
    isNamespaceChar c = false := by
  rcases h with rfl | rfl | rfl | rfl | rfl <;> decide

theorem afterClosingSign?_eq_some_iff {t rest : Text} :
    afterClosingSign? t = some rest ↔ ∃ sign, t = sign :: rest ∧ IsClosingSign sign := by
  constructor
  · intro h
    cases t with
    | nil => simp [afterClosingSign?] at h
    | cons c t =>
      simp only [afterClosingSign?] at h
      split at h
      next hc =>
        obtain rfl := Option.some.inj h
        exact ⟨c, rfl, by simpa [IsClosingSign] using hc⟩
      next => simp at h
  · rintro ⟨sign, rfl, rfl | rfl⟩
    · rfl
    · rfl

theorem IsClosingSign.not_isBlank {c : Char} (h : IsClosingSign c) : Text.isBlank c = false := by
  rcases h with rfl | rfl <;> decide

theorem IsClosingSign.stops {c : Char} (h : IsClosingSign c) {gap : Text} (hg : Blank gap)
    (rest : Text) : Stops isNamespaceChar (gap ++ c :: rest) := by
  refine (hg.stops fun _ => not_isBlank_of_namespaceChar).append_stops (stops_cons.mpr ?_)
  rcases h with rfl | rfl <;> decide

theorem NamespaceHead.ne_nil {name head : Text} (h : NamespaceHead name head) : head ≠ [] := by
  obtain ⟨blanks, gap, sign, rfl, -⟩ := h
  exact List.append_ne_nil_of_left_ne_nil solid_namespaceKeyword.1 _

theorem NamespaceHead.stops_isBlank {name head : Text} (h : NamespaceHead name head) :
    Stops Text.isBlank head := by
  obtain ⟨blanks, gap, sign, rfl, -⟩ := h
  exact solid_namespaceKeyword.stops _

theorem NamespaceHead.not_isOpening {name head : Text} (h : NamespaceHead name head) :
    ∀ c ∈ head, ¬ Span.IsOpening c := by
  obtain ⟨blanks, gap, sign, rfl, -, hb, hn, hg, hs⟩ := h
  intro c hc ho
  have hkey : c ∉ namespaceKeyword := by
    rcases ho with rfl | rfl | rfl | rfl | rfl <;> decide
  have hblank : c ∉ blanks := fun hc => absurd (hb c hc) (by simp [ho.not_isBlank])
  have hname : c ∉ name := fun hc => absurd (hn.all c hc) (by simp [ho.not_isNamespaceChar])
  have hgap : c ∉ gap := fun hc => absurd (hg c hc) (by simp [ho.not_isBlank])
  have hsign : c ≠ sign := by
    rcases hs with rfl | rfl <;> rcases ho with rfl | rfl | rfl | rfl | rfl <;> decide
  simp [hkey, hblank, hname, hgap, hsign] at hc

theorem exists_of_namespaceDeclarationAt? {offset : Nat} {line : Text} {d : Declaration}
    (h : namespaceDeclarationAt? offset line = some d) :
    ∃ indent head rest, line = indent ++ (head ++ rest) ∧ Blank indent ∧
      NamespaceHead d.name head ∧ d.start = offset + indent.length ∧
      d.stop = d.start + head.length := by
  simp only [namespaceDeclarationAt?, Option.bind_eq_bind, Option.bind_eq_some_iff] at h
  obtain ⟨t, ht, ⟨name, u⟩, hu, rest, hr, h⟩ := h
  have ht : afterKeyword? namespaceKeyword _ = some t := ht
  obtain ⟨blanks, hb, hne, hbl, -⟩ := afterKeyword?_eq_some_iff.mp ht
  obtain ⟨hn, hpath, -⟩ := (word?_eq_some_iff fun _ => isNamespaceChar_of_start).mp hu
  obtain ⟨sign, hsign, hs⟩ := afterClosingSign?_eq_some_iff.mp hr
  have hgap : u = u.takeWhile Text.isBlank ++ sign :: rest := by
    rw [← hsign, Text.trimStart, Text.trimStartOf, List.takeWhile_append_dropWhile]
  have hline : line = line.takeWhile Text.isBlank ++ Text.trimStart line :=
    List.takeWhile_append_dropWhile.symm
  have hlen := congrArg List.length hline
  rw [hb, hn, hgap] at hline
  have hrest := congrArg List.length hline
  obtain rfl := Option.some.inj h
  refine ⟨line.takeWhile Text.isBlank, _, rest, ?_, fun c hc => List.mem_takeWhile_imp hc,
    ⟨blanks, u.takeWhile Text.isBlank, sign, rfl, hne, hbl, hpath,
      fun c hc => List.mem_takeWhile_imp hc, hs⟩, ?_, ?_⟩
  · simpa only [List.append_assoc, List.singleton_append] using hline
  · simp only [List.length_append] at hlen ⊢
    omega
  · simp only [List.length_append, List.length_cons, List.length_nil] at hlen hrest ⊢
    omega

/-- Every namespace declaration that a line begins with is read. -/
theorem namespaceDeclarationAt?_of_head {indent head name : Text} (offset : Nat) (hi : Blank indent)
    (hh : NamespaceHead name head) (rest : Text) :
    namespaceDeclarationAt? offset (indent ++ (head ++ rest)) =
      some ⟨name, offset + indent.length, offset + indent.length + head.length⟩ := by
  obtain ⟨blanks, gap, sign, rfl, hne, hb, hn, hg, hs⟩ := hh
  have hfirst : Stops Text.isBlank (name ++ (gap ++ sign :: rest)) :=
    hn.stops (fun _ hc => not_isBlank_of_namespaceChar (isNamespaceChar_of_start hc)) _
  have htrim := dropWhile_run hi
    (solid_namespaceKeyword.stops (blanks ++ (name ++ (gap ++ sign :: rest))))
  have hkey : afterKeyword? "namespace".toList
      (namespaceKeyword ++ (blanks ++ (name ++ (gap ++ sign :: rest)))) =
        some (name ++ (gap ++ sign :: rest)) :=
    afterKeyword?_eq_some_iff.mpr ⟨blanks, rfl, hne, hb, hfirst⟩
  have hname := (word?_eq_some_iff fun _ => isNamespaceChar_of_start).mpr
    ⟨rfl, hn, hs.stops hg rest⟩
  have hgap : Text.trimStart (gap ++ sign :: rest) = sign :: rest :=
    dropWhile_run hg (stops_cons.mpr hs.not_isBlank)
  have hend : afterClosingSign? (sign :: rest) = some rest :=
    afterClosingSign?_eq_some_iff.mpr ⟨sign, rfl, hs⟩
  have hline : indent ++ (namespaceKeyword ++ (blanks ++ (name ++ (gap ++ [sign]))) ++ rest) =
      indent ++ (namespaceKeyword ++ (blanks ++ (name ++ (gap ++ sign :: rest)))) := by
    simp only [List.append_assoc, List.singleton_append]
  rw [hline, namespaceDeclarationAt?, Text.trimStart, Text.trimStartOf, htrim, hkey]
  simp only [hname, hgap, hend, Option.bind_eq_bind, Option.bind_some]
  simp only [List.length_append, List.length_cons, List.length_nil]
  congr 2 <;> omega

theorem namespaceDeclarationAt?_eq_some_iff {offset : Nat} {line : Text} {d : Declaration} :
    namespaceDeclarationAt? offset line = some d ↔
      ∃ indent head rest, line = indent ++ (head ++ rest) ∧ Blank indent ∧
        NamespaceHead d.name head ∧ d.start = offset + indent.length ∧
        d.stop = d.start + head.length := by
  refine ⟨exists_of_namespaceDeclarationAt?, ?_⟩
  rintro ⟨indent, head, rest, rfl, hi, hh, hs, he⟩
  rw [namespaceDeclarationAt?_of_head offset hi hh rest, ← hs, ← he]

def namespaceForm : DeclarationForm where
  read := namespaceDeclarationAt?
  Head := NamespaceHead
  continues := fun _ => false
  read_eq_some_iff := by
    intro offset line d
    rw [namespaceDeclarationAt?_eq_some_iff]
    simp [Stops]
  head_ne_nil := NamespaceHead.ne_nil
  stops_isBlank := NamespaceHead.stops_isBlank
  not_isOpening := NamespaceHead.not_isOpening
  isWordChar_of_continues := by simp

end AnnotatedRoutes.Source
