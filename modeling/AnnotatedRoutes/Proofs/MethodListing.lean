import AnnotatedRoutes.Proofs.ClassMembers
import AnnotatedRoutes.Proofs.MethodSearch

namespace AnnotatedRoutes.Source

/-- The modifiers of a method that the dispatcher can call. -/
def openModifiers : List Text := ["public".toList, "abstract".toList, "final".toList]

/-- What a method that the dispatcher can call is written as, with the blanks behind its keyword
`function`; without blanks a sign stands there. -/
def OpenHead (modifiers : List Text) (blanks name head : Text) : Prop :=
  ∃ run sign gap : Text,
    head = run ++ (functionKeyword ++ (blanks ++ (sign ++ (name ++ (gap ++ ['(']))))) ∧
      KeywordRun openModifiers modifiers run ∧ Blank blanks ∧ (blanks = [] → sign ≠ []) ∧
      IsSign sign ∧ Identifier name ∧ Blank gap

theorem KeywordRun.mono {keywords keywords' ks : List Text} {run : Text}
    (h : KeywordRun keywords ks run) (hsub : keywords ⊆ keywords') :
    KeywordRun keywords' ks run := by
  induction h with
  | nil => exact .nil
  | cons hk hne hb _ ih => exact .cons (hsub hk) hne hb ih

theorem KeywordRun.mem_of_mem {keywords ks : List Text} {run k : Text}
    (h : KeywordRun keywords ks run) (hk : k ∈ ks) : k ∈ keywords := by
  induction h with
  | nil => simp at hk
  | cons hm _ _ _ ih =>
    rcases List.mem_cons.mp hk with rfl | hk
    · exact hm
    · exact ih hk

theorem openModifiers_subset : openModifiers ⊆ methodModifiers := by decide

section OpenHead

variable {modifiers : List Text} {blanks name head : Text}

theorem OpenHead.methodHead (h : OpenHead modifiers blanks name head) (hne : blanks ≠ []) :
    MethodHead modifiers name head := by
  obtain ⟨run, sign, gap, rfl, hk, hb, -, hs, hn, hg⟩ := h
  exact ⟨run, blanks, sign, gap, rfl, hk.mono openModifiers_subset, hne, hb, hs, hn, hg⟩

theorem OpenHead.not_hidden (h : OpenHead modifiers blanks name head) :
    modifiers.all (fun modifier => !hiddenModifiers.contains modifier) = true := by
  obtain ⟨run, sign, gap, -, hk, -⟩ := h
  have hall : ∀ k ∈ openModifiers, (!hiddenModifiers.contains k) = true := by decide
  exact List.all_eq_true.mpr fun k hmem => hall k (hk.mem_of_mem hmem)

/-- The search does not read a keyword `function` with a sign directly behind it. -/
theorem OpenHead.methodAt?_eq_none (h : OpenHead modifiers [] name head) {indent : Text}
    (hi : ∀ c ∈ indent, isIndent c = true) (offset : Nat) (rest : Text) :
    methodAt? offset (indent ++ (head ++ rest)) = none := by
  obtain ⟨run, sign, gap, rfl, hk, -, hsign, hs, -⟩ := h
  obtain ⟨blanks, rfl, -⟩ := hs.resolve_left (hsign rfl)
  have hk := hk.mono openModifiers_subset
  let t : Text := blanks ++ (name ++ (gap ++ '(' :: rest))
  have hfunction : Stops Text.isBlank (functionKeyword ++ '&' :: t) := stops_cons.mpr (by decide)
  have hstop : Stops isIndent (run ++ (functionKeyword ++ '&' :: t)) :=
    (hk.stops solid_methodModifiers hfunction).mono fun _ => isBlank_of_isIndent
  have hrun := keywordRun_append solid_methodModifiers hk hfunction (anyKeyword?_functionKeyword _)
  have hkey : afterKeyword? "function".toList (functionKeyword ++ '&' :: t) = none := by rfl
  have htrim := dropWhile_run hi hstop
  simp only [t] at htrim hrun hkey
  simp only [List.nil_append, List.append_assoc, List.cons_append, methodAt?, Text.trimStartOf,
    htrim, hrun, hkey, Option.bind_eq_bind, Option.bind_none]

end OpenHead

/-- The last character of a text, blanks aside. -/
def lastSolid? (t : Text) : Option Char := (t.filter (!Text.isBlank ·)).getLast?

theorem lastSolid?_append (u v : Text) :
    lastSolid? (u ++ v) = (lastSolid? v).or (lastSolid? u) := by
  rw [lastSolid?, List.filter_append, List.getLast?_append]
  rfl

theorem lastSolid?_eq_none_iff {t : Text} : lastSolid? t = none ↔ Blank t := by
  simp [lastSolid?, Blank]

theorem mem_of_lastSolid? {t : Text} {c : Char} (h : lastSolid? t = some c) : c ∈ t :=
  (List.mem_filter.mp (List.mem_of_getLast? h)).1

/-- What a member of a class can follow: the beginning or the end of a block, a member without a
block, or an attribute. -/
def memberBounds : List Char := ['{', '}', ';', ']']

/-- A method of a class body that the dispatcher can call, by what stands before it, the blanks
behind its keyword `function` and its name. -/
structure OpenMember (constructorName code before blanks name : Text) : Prop where
  written : ∃ modifiers head rest, code = before ++ (head ++ rest) ∧
    OpenHead modifiers blanks name head
  direct : openBraces before = 0
  bounded : ∀ c, lastSolid? before = some c → c ∈ memberBounds
  not_constructor : Text.lower name ≠ Text.lower constructorName

/-- Between the beginning of its line and its end a text is indented. -/
def EndsInIndent (t : Text) : Prop :=
  ∃ u indent, t = u ++ indent ∧ lineStartAfter true u = true ∧ ∀ c ∈ indent, isIndent c = true

/-- The names of the listed methods, each with the offset of its first keyword. -/
def listing (constructorName body : Text) : List (Nat × Text) :=
  ((handlers constructorName body).map (·.keyword (masked body))).zip
    ((publicMethods constructorName body).map (·.name))

theorem mem_listing {constructorName body name : Text} {offset : Nat} :
    (offset, name) ∈ listing constructorName body ↔
      ∃ m ∈ handlers constructorName body,
        m.keyword (masked body) = offset ∧ m.name = name := by
  have hnames : (publicMethods constructorName body).map (·.name) =
      (handlers constructorName body).map (·.name) := by
    simp only [publicMethods, List.map_map]
    rfl
  rw [listing, hnames, List.zip_map', List.mem_map]
  simp only [Prod.mk.injEq]

theorem startsLine_append {lineStart : Bool} {u v : Text} :
    StartsLine lineStart (u ++ v) u.length ↔ lineStartAfter lineStart u = true := by
  induction u generalizing lineStart with
  | nil => exact Iff.rfl
  | cons c u ih => exact startsLine_cons_succ.trans ih

theorem MethodHead.not_mem_of_bound {modifiers : List Text} {name head : Text}
    (h : MethodHead modifiers name head) {c : Char} (hc : c ∈ memberBounds) : c ∉ head := by
  have hall : ∀ c ∈ memberBounds, (∀ k ∈ functionKeyword :: methodModifiers, c ∉ k) ∧
      Text.isBlank c = false ∧ isIdentifierChar c = false ∧ c ≠ '&' ∧ c ≠ '(' := by
    simp only [memberBounds, List.forall_mem_cons, List.not_mem_nil, false_implies, implies_true,
      and_true]
    decide
  obtain ⟨hw, hb, hi, hs, hp⟩ := hall c hc
  exact h.not_mem hw hb hi hs hp

/-- No declaration reaches over the bound of a member into the line on which it begins. -/
theorem length_le_of_bounded {u indent v : Text} (hline : lineStartAfter true u = true)
    (hi : ∀ c ∈ indent, isIndent c = true)
    (hb : ∀ c, lastSolid? (u ++ indent) = some c → c ∈ memberBounds) {y : Text} (hy : y <:+ u)
    (hne : y ≠ []) {i : Nat} {m : MethodDeclaration} (hm : methodAt? i (y ++ v) = some m) :
    m.length ≤ y.length := by
  obtain ⟨x, rfl⟩ := hy
  obtain ⟨gap, head, rest, ht, hgap, hh, -, hlen⟩ := exists_of_methodAt? hm
  by_contra hlt
  -- the declaration would go on behind the line feed that ends `y`
  have hgapPrefix : y <+: gap ++ head := by
    refine List.prefix_of_prefix_length_le (List.prefix_append y v) ?_ ?_
    · rw [ht, ← List.append_assoc]
      exact List.prefix_append _ rest
    · rw [List.length_append]
      omega
  have hfeed : '\n' ∈ y := by
    obtain ⟨w, c, rfl⟩ := (List.eq_nil_or_concat y).resolve_left hne
    rw [List.concat_eq_append, ← List.append_assoc, lineStartAfter_concat,
      decide_eq_true_eq] at hline
    simp [hline]
  have hsolid : ¬ Blank y := by
    rcases prefix_append_cases hgapPrefix with hp | ⟨q, hq, rfl⟩
    · exact absurd (hgap _ (hp.subset hfeed)) (by decide)
    · intro hblank
      obtain ⟨c, hc, hid⟩ := hh.exists_first
      have hqne : q ≠ [] := by
        rintro rfl
        rw [List.append_nil] at hfeed
        exact absurd (hgap _ hfeed) (by decide)
      obtain ⟨d, q, rfl⟩ := List.exists_cons_of_ne_nil hqne
      obtain ⟨r, rfl⟩ := hq
      obtain rfl : d = c := by simpa using hc
      exact absurd (hblank d (by simp)) (by simp [not_isBlank_of_identifierChar hid])
  obtain ⟨c, hc⟩ := Option.ne_none_iff_exists'.mp (mt lastSolid?_eq_none_iff.mp hsolid)
  have hindent : lastSolid? indent = none :=
    lastSolid?_eq_none_iff.mpr fun c hc => isBlank_of_isIndent (hi c hc)
  have hbound : c ∈ memberBounds := by
    refine hb c ?_
    rw [lastSolid?_append, hindent, lastSolid?_append, hc]
    rfl
  rcases List.mem_append.mp (hgapPrefix.subset (mem_of_lastSolid? hc)) with hg | hg
  · have hall : ∀ c ∈ memberBounds, isIndent c = false := by simp [memberBounds, isIndent]
    exact absurd (hgap c hg) (by simp [hall c hbound])
  · exact hh.not_mem_of_bound hbound hg

theorem keyword_append {u indent head rest name : Text} {modifiers : List Text}
    (hi : ∀ c ∈ indent, isIndent c = true) (hh : MethodHead modifiers name head)
    {m : MethodDeclaration} (hs : m.start = u.length) :
    m.keyword (u ++ (indent ++ (head ++ rest))) = (u ++ indent).length := by
  rw [MethodDeclaration.keyword, hs, List.drop_left, takeWhile_run hi (hh.stops_isIndent rest),
    List.length_append]

/-- A method that the dispatcher can call is listed exactly if only indentation stands before it on
its line and blanks stand behind its keyword `function`. -/
theorem OpenMember.mem_listing_iff {constructorName body before blanks name : Text}
    (h : OpenMember constructorName (masked body) before blanks name) :
    (before.length, name) ∈ listing constructorName body ↔ blanks ≠ [] ∧ EndsInIndent before := by
  obtain ⟨⟨modifiers, head, rest, hcode, hh⟩, hdirect, hbounded, hname⟩ := h
  rw [mem_listing]
  constructor
  · rintro ⟨m, hm, hk, -⟩
    obtain ⟨u, line, hu, hl, hs, hat⟩ := of_mem_methodsFrom (List.mem_filter.mp hm).1
    obtain ⟨indent, head', rest', rfl, hi, hh', -, -⟩ := exists_of_methodAt? hat
    rw [hu, keyword_append hi hh' (by omega)] at hk
    have hsplit : u ++ indent ++ (head' ++ rest') = before ++ (head ++ rest) := by
      rw [List.append_assoc, ← hu, hcode]
    obtain ⟨rfl, htail⟩ := List.append_inj hsplit hk
    refine ⟨?_, u, indent, rfl, startsLine_append.mp (hu ▸ hl), hi⟩
    rintro rfl
    rw [htail, hh.methodAt?_eq_none hi] at hat
    simp at hat
  · rintro ⟨hne, u, indent, rfl, hline, hi⟩
    have hh' := hh.methodHead hne
    have hcode' : masked body = u ++ (indent ++ (head ++ rest)) := by
      rw [hcode, List.append_assoc]
    obtain ⟨found, hf, -⟩ := methodsFrom_append (v := indent ++ (head ++ rest))
      (fun y hy hny i m => length_le_of_bounded hline hi hbounded hy hny) 0 (Nat.zero_le _) true
    rw [hline, methodsFrom_of_head _ hi hh', ← hcode'] at hf
    have hbalanced : bracesBalanced (masked body) (0 + u.length) = true := by
      have hindent : openBraces indent = 0 := openBraces_of_not_mem
        (fun hc => absurd (hi _ hc) (by decide)) (fun hc => absurd (hi _ hc) (by decide))
      rw [openBraces_append, hindent] at hdirect
      rw [bracesBalanced_iff, hcode', Nat.zero_add, List.take_left]
      omega
    refine ⟨⟨modifiers, name, 0 + u.length, indent.length + head.length⟩,
      List.mem_filter.mpr ⟨hf ▸ by simp, ?_⟩, ?_, rfl⟩
    · simp only [isHandler, hbalanced, hh.not_hidden, Bool.true_and, bne_iff_ne]
      exact hname
    · rw [hcode', keyword_append hi hh' (Nat.zero_add _)]

/-- A method behind an attribute, with braces in a string literal before it, its keywords on two
lines and a sign before its name. -/
theorem OpenMember.mem_listing_behind_attribute :
    let body := ("    private $s = '\x7d\x7b'; #[Pure]\n\t final public\n" ++
      "  function & _foo (array $a) \x7b\x7d\n").toList
    let before := "    private $s =     ; #[Pure]\n\t ".toList
    OpenMember "__construct".toList (masked body) before [' '] "_foo".toList ∧
      EndsInIndent before ∧
        (before.length, "_foo".toList) ∈ listing "__construct".toList body := by
  intro body before
  have hrun : KeywordRun openModifiers ["final".toList, "public".toList]
      "final public\n  ".toList := by
    refine .cons ?_ (show [' '] ≠ [] by simp) ?_
      (.cons ?_ (show "\n  ".toList ≠ [] by simp) ?_ .nil) <;> decide +kernel
  have hhead : OpenHead ["final".toList, "public".toList] [' '] "_foo".toList
      "final public\n  function & _foo (".toList := by
    refine ⟨"final public\n  ".toList, "& ".toList, [' '], ?_, hrun, ?_, ?_,
      Or.inr ⟨[' '], ?_, ?_⟩, ?_, ?_⟩ <;> decide +kernel
  have hlast : lastSolid? before = some ']' := by decide +kernel
  have h : OpenMember "__construct".toList (masked body) before [' '] "_foo".toList := by
    refine ⟨⟨_, _, "array $a) \x7b\x7d\n".toList, ?_, hhead⟩, ?_,
      fun c hc => Option.some.inj (hlast.symm.trans hc) ▸ ?_, ?_⟩ <;> decide +kernel
  have hindent : EndsInIndent before := by
    refine ⟨"    private $s =     ; #[Pure]\n".toList, "\t ".toList, ?_, ?_,
      List.all_eq_true.mp ?_⟩ <;> decide +kernel
  exact ⟨h, hindent, h.mem_listing_iff.mpr ⟨by decide, hindent⟩⟩

/-- A method behind another one on its line is not listed. -/
theorem OpenMember.not_listed_behind_method :
    let body := "    public function a() \x7b\x7d public function b() \x7b\x7d\n".toList
    let before := "    public function a() \x7b\x7d ".toList
    OpenMember "__construct".toList (masked body) before [' '] "b".toList ∧
      "b".toList ∉ (publicMethods "__construct".toList body).map (·.name) := by
  intro body before
  have hrun : KeywordRun openModifiers ["public".toList] "public ".toList := by
    refine .cons ?_ (show [' '] ≠ [] by simp) ?_ .nil <;> decide +kernel
  have hhead : OpenHead ["public".toList] [' '] "b".toList "public function b(".toList := by
    refine ⟨"public ".toList, [], [], ?_, hrun, ?_, ?_, Or.inl rfl, ?_, ?_⟩ <;> decide +kernel
  have hlast : lastSolid? before = some '\x7d' := by decide +kernel
  have h : OpenMember "__construct".toList (masked body) before [' '] "b".toList := by
    refine ⟨⟨_, _, ") \x7b\x7d\n".toList, ?_, hhead⟩, ?_,
      fun c hc => Option.some.inj (hlast.symm.trans hc) ▸ ?_, ?_⟩ <;> decide +kernel
  exact ⟨h, by decide +kernel⟩

end AnnotatedRoutes.Source
