import AnnotatedRoutes.Proofs.DeclarationReading
import AnnotatedRoutes.Proofs.PrintedMethods

namespace AnnotatedRoutes.Source

/-- A class as it is written in a source of its own. -/
structure PrintedClass where
  docblock : Option (List Text) := none
  name : Text
  methods : List PrintedMethod := []

namespace PrintedClass

def opening : Text := "<?php\n".toList

def print (c : PrintedClass) : Text :=
  opening ++ (docblockLines c.docblock ++ ("class ".toList ++ (c.name ++ ("\n\x7b\n".toList ++
    (c.methods.flatMap PrintedMethod.print ++ "\x7d".toList)))))

structure WellFormed (c : PrintedClass) : Prop where
  docblock_closingFree : ClosingFree c.docblock
  name_identifier : Identifier c.name
  methods : ∀ m ∈ c.methods, m.WellFormed

/-- The source through the name of the class. -/
def declared (c : PrintedClass) : Text :=
  opening ++ (docblockLines c.docblock ++ ("class ".toList ++ c.name))

/-- What stands between the braces of the class. -/
def body (c : PrintedClass) : Text := '\n' :: c.methods.flatMap PrintedMethod.print

def declaration (c : PrintedClass) : ClassDeclaration :=
  ⟨c.name, opening.length + (docblockLines c.docblock).length, c.declared.length⟩

theorem scan_opening_append (rest : Text) :
    Span.scan (opening ++ rest) = (Span.scan rest).map (Span.shift opening.length) := by
  have hcode : Code "?php\n".toList := by decide
  have hf : Span.first? ('<' :: ("?php\n".toList ++ rest)) = none := by rfl
  have ho : opening ++ rest = '<' :: ("?php\n".toList ++ rest) := by rfl
  rw [ho, Span.scan_cons_of_none hf, hcode.scan_append, Span.map_shift_shift]
  rfl

theorem scan_opening : Span.scan opening = [] := by
  have := scan_opening_append []
  rwa [List.append_nil, Span.scan_nil, List.map_nil] at this

theorem selfContained_opening : SelfContained opening := by
  intro rest
  rw [scan_opening_append, scan_opening, List.nil_append]

theorem undocumented_opening : Undocumented opening :=
  Or.inr ⟨"<?ph".toList, 'p', ['\n'], by decide, by decide, by decide, by decide,
    by simp [Blank, Text.isBlank]⟩

theorem classAt?_opening (offset : Nat) (rest : Text) :
    classAt? offset (opening ++ rest) = none := by
  by_contra hne
  obtain ⟨d, hd⟩ := Option.ne_none_iff_exists'.mp hne
  obtain ⟨indent, head, rest', ht, hi, hh, -⟩ := classAt?_eq_some_iff.mp hd
  cases indent with
  | cons c indent =>
    have hc : '<' = c := (List.cons.inj ht).1
    exact absurd (hi c (by simp)) (by rw [← hc]; decide)
  | nil =>
    cases head with
    | nil => exact hh.ne_nil rfl
    | cons c head =>
      have hc : '<' = c := (List.cons.inj ht).1
      exact hh.not_isOpening c (by simp) (by rw [← hc]; decide)

theorem firstClass?_opening (t : Text) :
    firstClass? (opening ++ t) = atLineStart? classAt? opening.length true t := by
  have ho : opening ++ t = "<?php".toList ++ '\n' :: t := by rfl
  rw [firstClass?, ho, atLineStart?_line (by decide) t fun _ => ho ▸ classAt?_opening 0 t]
  rfl

variable {c : PrintedClass}

theorem print_append (c : PrintedClass) (rest : Text) :
    c.print ++ rest = c.declared ++ ("\n\x7b".toList ++ (c.body ++ '}' :: rest)) := by
  have hb : "\n\x7b\n".toList = "\n\x7b".toList ++ ['\n'] := by decide
  have hc : "\x7d".toList = ['}'] := by decide
  simp [print, declared, body, hb, hc]

theorem WellFormed.code_name (h : c.WellFormed) : Code ("class ".toList ++ c.name) :=
  code_append.mpr ⟨by decide, h.name_identifier.code⟩

theorem WellFormed.selfContained_declared (h : c.WellFormed) : SelfContained c.declared :=
  selfContained_opening.append
    ((selfContained_docblockLines h.docblock_closingFree).append h.code_name.selfContained)

theorem WellFormed.selfContained_body (h : c.WellFormed) : SelfContained c.body :=
  code_newline.selfContained.append (PrintedMethod.selfContained_prints h.methods)

theorem WellFormed.masked_declared (h : c.WellFormed) :
    masked c.declared =
      opening ++ (masked (docblockLines c.docblock) ++ ("class ".toList ++ c.name)) := by
  rw [declared, selfContained_opening.masked_append, masked_of_scan_eq_nil scan_opening,
    (selfContained_docblockLines h.docblock_closingFree).masked_append, h.code_name.masked_eq]

theorem WellFormed.masked_print (h : c.WellFormed) (rest : Text) :
    masked (c.print ++ rest) =
      masked c.declared ++ ('\n' :: '{' :: (masked c.body ++ '}' :: masked rest)) := by
  have hopen : Code "\n\x7b".toList := by decide
  have hclose : Code ['}'] := by decide
  have hr : '}' :: rest = ['}'] ++ rest := rfl
  rw [print_append, h.selfContained_declared.masked_append, hopen.selfContained.masked_append,
    hopen.masked_eq, h.selfContained_body.masked_append, hr, hclose.selfContained.masked_append,
    hclose.masked_eq]
  rfl

theorem WellFormed.firstClass?_masked (h : c.WellFormed) (rest : Text) :
    firstClass? (masked (c.print ++ rest)) = some c.declaration := by
  have hblank : Blank (masked (docblockLines c.docblock)) := by
    rcases masked_docblockLines h.docblock_closingFree with he | ⟨u, he, hu⟩
    · simp [he, Blank]
    · rw [he]
      refine blank_append.mpr ⟨fun d hd => ?_, by simp [Blank, Text.isBlank]⟩
      rcases hu d hd with rfl | rfl <;> decide
  have hhead : ClassHead c.name ("class ".toList ++ c.name) :=
    ⟨[], [], [' '], by rfl, .nil, by simp, by simp [Blank, Text.isBlank], h.name_identifier⟩
  have hread : classAt? opening.length (masked (docblockLines c.docblock) ++
      (("class ".toList ++ c.name) ++ ('\n' :: '{' :: (masked c.body ++ '}' :: masked rest)))) =
        some c.declaration := by
    refine classAt?_eq_some_iff.mpr
      ⟨_, _, _, rfl, hblank, hhead, stops_cons.mpr (by decide), ?_, ?_⟩
    · rw [length_masked]
      rfl
    · simp [declaration, declared, Nat.add_assoc]
  rw [h.masked_print, h.masked_declared, List.append_assoc, firstClass?_opening, List.append_assoc]
  exact atLineStart?_of_read (by simp) hread

theorem masked_body (c : PrintedClass) :
    masked c.body = ['\n'] ++ masked (c.methods.flatMap PrintedMethod.print) := by
  rw [body, ← List.singleton_append, code_newline.selfContained.masked_append,
    code_newline.masked_eq]

theorem balanced_newline : Balanced ['\n'] := balanced_of_not_mem (by decide) (by decide)

theorem WellFormed.balanced_body (h : c.WellFormed) : Balanced (masked c.body) := by
  rw [c.masked_body]
  exact balanced_newline.append (PrintedMethod.balanced_prints h.methods)

theorem WellFormed.classBody_masked (h : c.WellFormed) (rest : Text) :
    classBody (masked (c.print ++ rest)) c.declared.length =
      (c.declared.length + 2, c.declared.length + 2 + c.body.length) := by
  have hdrop : (masked (c.print ++ rest)).drop c.declared.length =
      '\n' :: '{' :: (masked c.body ++ '}' :: masked rest) := by
    rw [h.masked_print, ← length_masked c.declared, List.drop_left]
  have hindex : ∀ t, Text.indexOf? ['{'] ('\n' :: '{' :: t) = some 1 := fun t => by rfl
  have hlen : bodyLength 1 (masked c.body ++ '}' :: masked rest) = c.body.length := by
    have := h.balanced_body.bodyLength_append 0 ('}' :: masked rest)
    rwa [Nat.zero_add, bodyLength_end, Nat.add_zero, length_masked] at this
  have hinside : (masked (c.print ++ rest)).drop (c.declared.length + 1 + 1) =
      masked c.body ++ '}' :: masked rest := by
    rw [Nat.add_assoc, ← List.drop_drop, hdrop]
    rfl
  rw [classBody, hdrop, hindex]
  simp only [hinside, hlen]

theorem WellFormed.publicMethods_body (h : c.WellFormed) (constructorName : Text) :
    publicMethods constructorName c.body =
      (c.methods.filter (PrintedMethod.isCallable constructorName)).map
        PrintedMethod.toHandler := by
  have hblank : Undocumented ['\n'] := Or.inl (by simp [Blank, Text.isBlank])
  have hfound : methodsFrom 0 0 true (masked c.body) =
      methodsFrom 1 0 true (masked (c.methods.flatMap PrintedMethod.print)) := by
    rw [c.masked_body]
    exact methodsFrom_blank (u := []) (by simp) 0 true _
  have hhandlers := PrintedMethod.handlers_prints h.methods code_newline.selfContained hblank
    (code_newline.masked_eq.symm ▸ balanced_newline) (rfl : c.body = ['\n'] ++ _) constructorName
  have hp : publicMethods constructorName c.body =
      ((methodsFrom 0 0 true (masked c.body)).filter
        (isHandler constructorName (masked c.body))).map
        fun m => ⟨m.name, precedingDocblock c.body m.start (Span.scan c.body)⟩ := rfl
  rw [hp, hfound]
  exact hhandlers

/-- Scanning undoes printing: the class is found with its docblock, and its callable methods with
theirs, whatever the bodies of the methods hold and whatever follows the class. -/
theorem scanClass_print {c : PrintedClass} (h : c.WellFormed)
    (constructorName qualifiedName rest : Text) :
    scanClass constructorName qualifiedName (c.print ++ rest) =
      some
        { qualifiedName
          comment := docblockText c.docblock
          methods := (c.methods.filter (PrintedMethod.isCallable constructorName)).map
            PrintedMethod.toHandler } := by
  have hcomment : precedingDocblock (c.print ++ rest) c.declaration.start
      (Span.scan (c.print ++ rest)) = docblockText c.docblock :=
    precedingDocblock_docblockLines selfContained_opening undocumented_opening
      h.docblock_closingFree (by rw [print, List.append_assoc, List.append_assoc])
  have hslice : slice (c.print ++ rest) (c.declared.length + 2)
      (c.declared.length + 2 + c.body.length) = c.body := by
    have := slice_append (c.declared ++ "\n\x7b".toList) c.body ('}' :: rest)
    rwa [List.append_assoc, ← print_append, List.length_append] at this
  have hs : scanClass constructorName qualifiedName (c.print ++ rest) =
      (firstClass? (masked (c.print ++ rest))).map fun d =>
        let span := classBody (masked (c.print ++ rest)) d.stop
        { qualifiedName
          comment := precedingDocblock (c.print ++ rest) d.start (Span.scan (c.print ++ rest))
          methods := publicMethods constructorName (slice (c.print ++ rest) span.1 span.2) } := rfl
  have hbody : classBody (masked (c.print ++ rest)) c.declaration.stop =
      (c.declared.length + 2, c.declared.length + 2 + c.body.length) := h.classBody_masked rest
  rw [hs, h.firstClass?_masked, Option.map_some]
  simp only [hcomment, hbody, hslice, h.publicMethods_body]

/-- A literal that holds a brace and a nested function in a body, and a method that is hidden. -/
theorem scanClass_print_home :
    let list : PrintedMethod :=
      { docblock := some ["@route(".toList, ")".toList]
        modifiers := ["final".toList, "public".toList]
        name := "list".toList
        body := "$a = '\x7d';\n  function helper() \x7b\x7d".toList }
    let hide : PrintedMethod :=
      { modifiers := ["static".toList], name := "hide".toList, body := [] }
    let home : PrintedClass :=
      { docblock := some ["name=home".toList], name := "Home".toList, methods := [list, hide] }
    home.WellFormed ∧
      scanClass "__construct".toList "Home".toList (home.print ++ ['\n']) =
        some
          { qualifiedName := "Home".toList
            comment := "/**\n * name=home\n */".toList
            methods := [⟨"list".toList, "/**\n * @route(\n * )\n */".toList⟩] } := by
  intro list hide home
  have hassign : Code "$a = ".toList := by decide
  have hrest : Code ";\n  function helper() \x7b\x7d\n".toList := by decide
  have hliteral : ∀ rest, Span.Opens ("'\x7d'".toList ++ rest) .string "'\x7d'".toList.length := by
    intro rest
    have hlen : Span.quotedLength '\'' ('}' :: '\'' :: rest) = 2 := by
      cases rest with
      | nil => rfl
      | cons c rest => rfl
    have hquote : Span.IsQuote '\'' := Or.inl rfl
    have ho := Span.Opens.quoted hquote ('}' :: '\'' :: rest)
    rwa [hlen] at ho
  have hlist : list.WellFormed :=
    { docblock_closingFree := by decide
      modifiers_mem := by decide
      name_identifier := by decide
      body_selfContained := hassign.selfContained.append
        ((selfContained_of_opens hliteral).append hrest.selfContained)
      body_balanced := by decide +kernel }
  have hhide : hide.WellFormed :=
    { docblock_closingFree := by decide
      modifiers_mem := by decide
      name_identifier := by decide
      body_selfContained := code_newline.selfContained
      body_balanced := by decide +kernel }
  have hhome : home.WellFormed :=
    { docblock_closingFree := by decide
      name_identifier := by decide
      methods := List.forall_mem_cons.mpr ⟨hlist, List.forall_mem_singleton.mpr hhide⟩ }
  refine ⟨hhome, (scanClass_print hhome _ _ _).trans ?_⟩
  decide +kernel

end PrintedClass

end AnnotatedRoutes.Source
