import AnnotatedRoutes.Proofs.BraceBalance
import AnnotatedRoutes.Proofs.MethodSearch
import AnnotatedRoutes.Proofs.PrintedDocblock

namespace AnnotatedRoutes.Source

/-- A method as it is written: without parameters, and with any text for its body. -/
structure PrintedMethod where
  docblock : Option (List Text) := none
  modifiers : List Text := []
  name : Text
  body : Text

namespace PrintedMethod

def indent : Text := "    ".toList

def signature (m : PrintedMethod) : Text :=
  m.modifiers.flatMap (· ++ [' ']) ++ ("function ".toList ++ (m.name ++ "()".toList))

def bodyOpening : Text := "\n    \x7b\n".toList

def bodyClosing : Text := "\n    \x7d\n".toList

def print (m : PrintedMethod) : Text :=
  docblockLines m.docblock ++
    (indent ++ (m.signature ++ (bodyOpening ++ (m.body ++ bodyClosing))))

/-- The comments and string literals of the body end in it, whatever follows it, and its braces
balance. -/
structure WellFormed (m : PrintedMethod) : Prop where
  docblock_closingFree : ClosingFree m.docblock
  modifiers_mem : ∀ k ∈ m.modifiers, k ∈ methodModifiers
  name_identifier : Identifier m.name
  body_selfContained : SelfContained (m.body ++ ['\n'])
  body_balanced : Balanced (masked m.body)

/-- Whether the dispatcher can call the method in a class with the given constructor. -/
def isCallable (constructorName : Text) (m : PrintedMethod) : Bool :=
  m.modifiers.all (fun modifier => !hiddenModifiers.contains modifier) &&
    Text.lower m.name != Text.lower constructorName

def toHandler (m : PrintedMethod) : HandlerMethod := ⟨m.name, docblockText m.docblock⟩

/-- The declaration through its opening parenthesis. -/
def head (m : PrintedMethod) : Text :=
  m.modifiers.flatMap (· ++ [' ']) ++ (functionKeyword ++ ([' '] ++ (m.name ++ ['('])))

/-- What stands behind the opening brace and before the closing one. -/
def inside (m : PrintedMethod) : Text := '\n' :: (masked m.body ++ "\n    ".toList)

theorem signature_eq (m : PrintedMethod) : m.signature = m.head ++ [')'] := by
  have hf : "function ".toList = functionKeyword ++ [' '] := by decide
  have hp : "()".toList = ['(', ')'] := by decide
  simp [signature, head, hf, hp]

theorem keywordRun_modifiers {keywords modifiers : List Text} (h : ∀ k ∈ modifiers, k ∈ keywords) :
    KeywordRun keywords modifiers (modifiers.flatMap (· ++ [' '])) := by
  induction modifiers with
  | nil => exact .nil
  | cons k modifiers ih =>
    obtain ⟨hk, hm⟩ := List.forall_mem_cons.mp h
    rw [List.flatMap_cons, List.append_assoc]
    exact .cons hk (List.cons_ne_nil _ _) (by simp [Blank, Text.isBlank]) (ih hm)

variable {m : PrintedMethod}

theorem WellFormed.methodHead (h : m.WellFormed) : MethodHead m.modifiers m.name m.head :=
  ⟨_, [' '], [], [], rfl, keywordRun_modifiers h.modifiers_mem, List.cons_ne_nil _ _,
    by simp [Blank, Text.isBlank], Or.inl rfl, h.name_identifier, by simp [Blank]⟩

/-- The text of the method up to its opening brace. -/
def beforeBody (m : PrintedMethod) : Text :=
  masked (docblockLines m.docblock) ++ (indent ++ (m.head ++ ")\n    ".toList))

theorem WellFormed.code_signature (h : m.WellFormed) :
    Code (indent ++ (m.signature ++ bodyOpening)) := by
  have hkeys : ∀ k ∈ methodModifiers, Code (k ++ [' ']) := by decide
  have hmodifiers : Code (m.modifiers.flatMap (· ++ [' '])) := by
    intro c hc
    obtain ⟨k, hk, hc⟩ := List.mem_flatMap.mp hc
    exact hkeys k (h.modifiers_mem k hk) c hc
  have hindent : Code indent := by decide
  have hfunction : Code "function ".toList := by decide
  have hparens : Code "()".toList := by decide
  have hopening : Code bodyOpening := by decide
  simp only [signature, code_append]
  exact ⟨hindent, ⟨hmodifiers, hfunction, h.name_identifier.code, hparens⟩, hopening⟩

theorem print_eq (m : PrintedMethod) :
    m.print = docblockLines m.docblock ++
      ((indent ++ (m.signature ++ bodyOpening)) ++
        ((m.body ++ ['\n']) ++ "    \x7d\n".toList)) := by
  have hc : bodyClosing = ['\n'] ++ "    \x7d\n".toList := by decide
  simp [print, hc]

theorem WellFormed.selfContained (h : m.WellFormed) : SelfContained m.print := by
  have hclosing : Code "    \x7d\n".toList := by decide
  rw [print_eq]
  exact (selfContained_docblockLines h.docblock_closingFree).append
    (h.code_signature.selfContained.append (h.body_selfContained.append hclosing.selfContained))

/-- The mask of a method shows all but its docblock and the comments and literals of its body. -/
theorem WellFormed.masked_print (h : m.WellFormed) :
    masked m.print = m.beforeBody ++ '{' :: (m.inside ++ '}' :: ['\n']) := by
  have hclosing : Code "    \x7d\n".toList := by decide
  rw [print_eq, (selfContained_docblockLines h.docblock_closingFree).masked_append,
    h.code_signature.selfContained.masked_append, h.code_signature.masked_eq,
    h.body_selfContained.masked_append, masked_append_newline h.body_selfContained,
    hclosing.masked_eq, signature_eq]
  have ho : bodyOpening = "\n    ".toList ++ ['{', '\n'] := by decide
  have hc : "    \x7d\n".toList = "    ".toList ++ ['}', '\n'] := by decide
  have hb : ")\n    ".toList = ')' :: "\n    ".toList := by decide
  have hi : "\n    ".toList = '\n' :: "    ".toList := by decide
  simp [beforeBody, inside, ho, hc, hb, hi]

theorem balanced_masked_docblockLines {docblock : Option (List Text)} (h : ClosingFree docblock) :
    Balanced (masked (docblockLines docblock)) := by
  have hclear : ∀ c ∈ masked (docblockLines docblock), c = ' ' ∨ c = '\n' := by
    rcases masked_docblockLines h with he | ⟨u, he, hu⟩
    · simp [he]
    · intro c hc
      rw [he, List.mem_append, List.mem_singleton] at hc
      exact hc.elim (hu c) Or.inr
  refine balanced_of_not_mem (fun hm => ?_) fun hm => ?_
  · exact absurd (hclear _ hm) (by decide)
  · exact absurd (hclear _ hm) (by decide)

theorem WellFormed.balanced_beforeBody (h : m.WellFormed) : Balanced m.beforeBody := by
  have hhead := h.methodHead.not_mem_brace
  exact (balanced_masked_docblockLines h.docblock_closingFree).append
    ((balanced_of_not_mem (by decide) (by decide)).append
      ((balanced_of_not_mem hhead.1 hhead.2).append (balanced_of_not_mem (by decide) (by decide))))

theorem WellFormed.balanced_inside (h : m.WellFormed) : Balanced m.inside :=
  (balanced_of_not_mem (t := ['\n']) (by decide) (by decide)).append
    (h.body_balanced.append (balanced_of_not_mem (by decide) (by decide)))

theorem WellFormed.balanced_print (h : m.WellFormed) : Balanced (masked m.print) := by
  have he : m.beforeBody ++ '{' :: (m.inside ++ '}' :: ['\n']) =
      m.beforeBody ++ ('{' :: (m.inside ++ ['}']) ++ ['\n']) := by
    simp
  rw [h.masked_print, he]
  exact h.balanced_beforeBody.append
    (h.balanced_inside.braced.append (balanced_of_not_mem (by decide) (by decide)))

theorem undocumented_print (before : Text) (m : PrintedMethod) :
    Undocumented (before ++ m.print) := by
  refine Or.inr ⟨before ++ (docblockLines m.docblock ++
    (indent ++ (m.signature ++ (bodyOpening ++ (m.body ++ "\n    ".toList))))), '}', ['\n'], ?_,
    by decide, by decide, by decide, by simp [Blank, Text.isBlank]⟩
  have hc : bodyClosing = "\n    ".toList ++ ['}', '\n'] := by decide
  simp [print, hc]

theorem methodsFrom_docblockLines {docblock : Option (List Text)} (h : ClosingFree docblock)
    (offset : Nat) (t : Text) :
    methodsFrom offset 0 true (masked (docblockLines docblock) ++ t) =
      methodsFrom (offset + (docblockLines docblock).length) 0 true t := by
  rw [← length_masked (docblockLines docblock)]
  rcases masked_docblockLines h with he | ⟨u, he, hu⟩
  · rw [he]
    rfl
  · rw [he, List.append_assoc, List.singleton_append, methodsFrom_blank hu, List.length_append,
      List.length_singleton, Nat.add_assoc]

theorem methodsFrom_parenthesis (offset : Nat) (t : Text) :
    methodsFrom offset 0 false (")\n    ".toList ++ '{' :: t) =
      methodsFrom (offset + 7) 0 false t := by
  have hline : methodAt? (offset + 2) (' ' :: ' ' :: ' ' :: ' ' :: '{' :: t) = none :=
    methodAt?_eq_none (c := '{') (t := t) (by simp [isIndent]) (by decide)
  have hs : ")\n    ".toList ++ '{' :: t =
      ')' :: '\n' :: ' ' :: ' ' :: ' ' :: ' ' :: '{' :: t := by rfl
  rw [hs]
  simp [methodsFrom, hline]

/-- The declaration of a printed method. -/
def declaration (offset : Nat) (m : PrintedMethod) : MethodDeclaration :=
  ⟨m.modifiers, m.name, offset + (docblockLines m.docblock).length, indent.length + m.head.length⟩

theorem WellFormed.methodsFrom_print (h : m.WellFormed) (offset : Nat) (t : Text) :
    ∃ nested, methodsFrom offset 0 true (masked m.print ++ t) =
        m.declaration offset :: (nested ++ methodsFrom (offset + m.print.length) 0 true t) ∧
      ∀ n ∈ nested, offset + m.beforeBody.length < n.start ∧
        n.start ≤ offset + m.beforeBody.length + 1 + m.inside.length := by
  have hindent : ∀ c ∈ indent, isIndent c = true := List.all_eq_true.mp (by decide)
  have hlen : m.print.length = m.beforeBody.length + 1 + m.inside.length + 2 := by
    rw [← length_masked m.print, h.masked_print]
    simp
    omega
  have hbefore : m.beforeBody.length =
      (docblockLines m.docblock).length + (indent ++ m.head).length + 6 := by
    simp [beforeBody, length_masked]
    omega
  have htext : masked m.print ++ t = masked (docblockLines m.docblock) ++
      (indent ++ (m.head ++ (")\n    ".toList ++ '{' :: (m.inside ++ '}' :: '\n' :: t)))) := by
    rw [h.masked_print, beforeBody]
    simp
  obtain ⟨nested, hn, hb⟩ := methodsFrom_brace m.inside
    (offset + (docblockLines m.docblock).length + (indent ++ m.head).length + 7)
    (Nat.zero_le _) false ('\n' :: t)
  refine ⟨nested, ?_, fun n hm => ?_⟩
  · rw [htext, methodsFrom_docblockLines h.docblock_closingFree,
      methodsFrom_of_head _ hindent h.methodHead, methodsFrom_parenthesis, hn,
      methodsFrom_of_none (by simp)]
    rw [declaration]
    congr 3
    omega
  · have := hb n hm
    omega

variable {ms : List PrintedMethod}

theorem selfContained_prints (h : ∀ m ∈ ms, m.WellFormed) : SelfContained (ms.flatMap print) :=
  SelfContained.flatMap fun m hm => (h m hm).selfContained

theorem balanced_prints (h : ∀ m ∈ ms, m.WellFormed) : Balanced (masked (ms.flatMap print)) := by
  induction ms with
  | nil => exact balanced_of_not_mem (by decide) (by decide)
  | cons m ms ih =>
    obtain ⟨hm, hms⟩ := List.forall_mem_cons.mp h
    rw [List.flatMap_cons, hm.selfContained.masked_append]
    exact hm.balanced_print.append (ih hms)

/-- What is found inside the braces of a printed method is no method of the class. -/
theorem WellFormed.not_isHandler_inside (h : m.WellFormed) {before code : Text}
    (hb : Balanced before) (constructorName t : Text) {n : MethodDeclaration}
    (hcode : code = before ++ (masked m.print ++ t))
    (hlt : before.length + m.beforeBody.length < n.start)
    (hle : n.start ≤ before.length + m.beforeBody.length + 1 + m.inside.length) :
    isHandler constructorName code n = false := by
  have hbraces : bracesBalanced code n.start = false := by
    obtain ⟨i, hi⟩ : ∃ i, n.start = before.length + i := ⟨n.start - before.length, by omega⟩
    have he : masked m.print ++ t = m.beforeBody ++ '{' :: (m.inside ++ ('}' :: '\n' :: t)) := by
      rw [h.masked_print]
      simp
    rw [hi, hcode, hb.bracesBalanced_append, he]
    exact h.balanced_beforeBody.bracesBalanced_inside h.balanced_inside _ (by omega) (by omega)
  rw [isHandler, hbraces]
  rfl

theorem WellFormed.isHandler_declaration (h : m.WellFormed) {before code : Text}
    (hb : Balanced before) (constructorName t : Text)
    (hcode : code = before ++ (masked m.print ++ t)) :
    isHandler constructorName code (m.declaration before.length) =
      isCallable constructorName m := by
  have hd : Balanced (masked (docblockLines m.docblock)) :=
    balanced_masked_docblockLines h.docblock_closingFree
  have hbraces :
      bracesBalanced code (before.length + (docblockLines m.docblock).length) = true := by
    rw [← length_masked (docblockLines m.docblock), hcode, hb.bracesBalanced_append,
      h.masked_print, beforeBody, List.append_assoc, List.append_assoc]
    exact hd.bracesBalanced_length _
  rw [isHandler, declaration, hbraces, Bool.true_and]
  rfl

/-- The methods found in printed methods are the callable ones, each with its own docblock. -/
theorem handlers_prints (h : ∀ m ∈ ms, m.WellFormed) {before body : Text}
    (hs : SelfContained before) (hu : Undocumented before) (hb : Balanced (masked before))
    (hbody : body = before ++ ms.flatMap print) (constructorName : Text) :
    ((methodsFrom before.length 0 true (masked (ms.flatMap print))).filter
        (isHandler constructorName (masked body))).map
          (fun m => (⟨m.name, precedingDocblock body m.start (Span.scan body)⟩ : HandlerMethod)) =
      (ms.filter (isCallable constructorName)).map toHandler := by
  -- a method that has been read joins what stands before the next one
  induction ms generalizing before with
  | nil => rfl
  | cons m ms ih =>
    obtain ⟨hm, hms⟩ := List.forall_mem_cons.mp h
    rw [List.flatMap_cons] at hbody ⊢
    have hcode : masked body = masked before ++ (masked m.print ++ masked (ms.flatMap print)) := by
      rw [hbody, hs.masked_append, hm.selfContained.masked_append]
    obtain ⟨nested, hn, hin⟩ := hm.methodsFrom_print before.length (masked (ms.flatMap print))
    have hhidden : nested.filter (isHandler constructorName (masked body)) = [] := by
      rw [List.filter_eq_nil_iff]
      intro n hmem
      obtain ⟨hlt, hle⟩ := hin n hmem
      have hno := hm.not_isHandler_inside hb constructorName _ hcode
        (by rwa [length_masked]) (by rwa [length_masked])
      simp [hno]
    have hfirst := hm.isHandler_declaration hb constructorName _ hcode
    rw [length_masked] at hfirst
    have hdoc : precedingDocblock body (m.declaration before.length).start (Span.scan body) =
        docblockText m.docblock :=
      precedingDocblock_docblockLines hs hu hm.docblock_closingFree
        (by rw [hbody, print, List.append_assoc])
    have hrest := ih hms (hs.append hm.selfContained)
      (undocumented_print before m)
      (by rw [hs.masked_append]; exact hb.append hm.balanced_print) (by rw [hbody]; simp)
    rw [List.length_append] at hrest
    rw [hm.selfContained.masked_append, hn, List.filter_cons, hfirst, List.filter_cons,
      List.filter_append, hhidden, List.nil_append]
    cases isCallable constructorName m with
    | true =>
      rw [if_pos rfl, if_pos rfl, List.map_cons, List.map_cons, hdoc, hrest]
      rfl
    | false => simpa using hrest

end PrintedMethod

end AnnotatedRoutes.Source
