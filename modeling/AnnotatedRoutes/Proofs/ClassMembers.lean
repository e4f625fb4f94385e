import AnnotatedRoutes.Proofs.BodySpans
import AnnotatedRoutes.Proofs.BraceBalance
import AnnotatedRoutes.Proofs.MethodDocblocks

namespace AnnotatedRoutes.Source

/-- How many braces of a text stay open; negative if more of them close. -/
def openBraces (t : Text) : Int := t.count '{' - t.count '}'

@[simp] theorem openBraces_nil : openBraces [] = 0 := rfl

@[simp] theorem openBraces_append (u v : Text) :
    openBraces (u ++ v) = openBraces u + openBraces v := by
  simp only [openBraces, List.count_append]
  omega

@[simp] theorem openBraces_open (t : Text) : openBraces ('{' :: t) = openBraces t + 1 := by
  simp only [openBraces, List.count_cons_self, List.count_cons_of_ne (show '{' ≠ '}' by decide)]
  omega

@[simp] theorem openBraces_close (t : Text) : openBraces ('}' :: t) = openBraces t - 1 := by
  simp only [openBraces, List.count_cons_self, List.count_cons_of_ne (show '}' ≠ '{' by decide)]
  omega

theorem openBraces_other {c : Char} (ho : c ≠ '{') (hc : c ≠ '}') (t : Text) :
    openBraces (c :: t) = openBraces t := by
  simp only [openBraces, List.count_cons_of_ne ho, List.count_cons_of_ne hc]

theorem openBraces_of_not_mem {t : Text} (ho : '{' ∉ t) (hc : '}' ∉ t) : openBraces t = 0 := by
  rw [openBraces, List.count_eq_zero_of_not_mem ho, List.count_eq_zero_of_not_mem hc, Int.sub_self]

theorem bracesBalanced_iff {t : Text} {i : Nat} :
    bracesBalanced t i = true ↔ openBraces (t.take i) = 0 := by
  rw [bracesBalanced, beq_iff_eq, openBraces]
  omega

/-- Inside a body the brace that opens it stays open. -/
theorem openBraces_inside_body {depth : Nat} {t p : Text} (hd : 0 < depth)
    (h : p <+: t.take (bodyLength depth t)) : 0 < depth + openBraces p := by
  fun_induction bodyLength depth t generalizing p with
  | case1 =>
    obtain rfl : p = [] := by simpa using h
    simpa using hd
  | case2 depth t ih =>
    obtain rfl | ⟨q, rfl, hq⟩ := List.prefix_cons_iff.mp h
    · simpa using hd
    · have := ih (by omega) hq
      rw [openBraces_open]
      push_cast at this
      omega
  | case3 t depth hc ih =>
    obtain rfl | ⟨q, rfl, hq⟩ := List.prefix_cons_iff.mp h
    · simp
      omega
    · have := ih (by omega) hq
      rw [openBraces_close]
      push_cast at this ⊢
      omega
  | case4 depth t hc hd' =>
    obtain rfl : p = [] := by simpa using h
    simpa using hd
  | case5 depth c t ho hc ih =>
    obtain rfl | ⟨q, rfl, hq⟩ := List.prefix_cons_iff.mp h
    · simpa using hd
    · rw [openBraces_other ho hc]
      exact ih hd hq

/-- A brace opens the body behind `offset` if it is the first one there. -/
structure OpensBody (code : Text) (offset brace : Nat) : Prop where
  behind : offset ≤ brace
  isBrace : code[brace]? = some '{'
  first : '{' ∉ slice code offset brace

theorem slice_add (t : Text) (start n : Nat) :
    slice t start (start + n) = (t.drop start).take n := by
  rw [slice, List.drop_take, Nat.add_sub_cancel_left]

theorem OpensBody.slice_eq {code : Text} {offset brace : Nat} (h : OpensBody code offset brace)
    (n : Nat) : slice code brace (brace + 1 + n) = '{' :: (code.drop (brace + 1)).take n := by
  obtain ⟨hlt, hget⟩ := List.getElem?_eq_some_iff.mp h.isBrace
  rw [Nat.add_assoc, slice_add, List.drop_eq_getElem_cons hlt, hget, Nat.add_comm 1,
    List.take_succ_cons]

/-- A class body is empty, or it reaches from its opening brace as far as this brace stays open. -/
theorem classBody_eq (code : Text) (offset : Nat) :
    classBody code offset = (offset, offset) ∨
      ∃ brace, OpensBody code offset brace ∧
        classBody code offset =
          (brace + 1, brace + 1 + bodyLength 1 (code.drop (brace + 1))) := by
  rw [classBody]
  cases hi : Text.indexOf? ['{'] (code.drop offset) with
  | none => exact Or.inl rfl
  | some n =>
    have hfirst := Text.not_mem_take_of_indexOf? hi
    obtain ⟨u, v, hd, rfl⟩ := Text.exists_append_of_indexOf? hi
    refine Or.inr ⟨offset + u.length, ⟨Nat.le_add_right _ _, ?_, by rwa [slice_add]⟩, rfl⟩
    rw [← List.getElem?_drop, hd]
    simp

/-- A method is declared in the body that a brace opens, and in no braces inside it: only that brace
is open from the beginning of the declaration to its end, and it is open from the body's beginning
on. -/
structure DirectMember (code : Text) (brace : Nat) (m : MethodDeclaration) : Prop where
  behind : brace < m.start
  declared : methodAt? m.start (code.drop m.start) = some m
  direct : ∀ i, m.start ≤ i → i ≤ m.start + m.length → openBraces (slice code brace i) = 1
  inside : ∀ i, brace < i → i ≤ m.start + m.length → 1 ≤ openBraces (slice code brace i)

theorem OpensBody.directMember {code before indent head rest name : Text} {modifiers : List Text}
    {offset brace : Nat} (h : OpensBody code offset brace)
    (hcode : code.drop (brace + 1) = before ++ (indent ++ (head ++ rest)))
    (hopen : ∀ p, p <+: before ++ (indent ++ head) → 0 < 1 + openBraces p)
    (hbefore : openBraces before = 0) (hi : ∀ c ∈ indent, isIndent c = true)
    (hh : MethodHead modifiers name head) :
    DirectMember code brace
      ⟨modifiers, name, brace + 1 + before.length, indent.length + head.length⟩ := by
  have hline : code.drop (brace + 1 + before.length) = indent ++ (head ++ rest) := by
    rw [← List.drop_drop, hcode, List.drop_left]
  have hbody : ∀ n, n ≤ (before ++ (indent ++ head)).length →
      (code.drop (brace + 1)).take n = (before ++ (indent ++ head)).take n := by
    intro n hn
    have hcode' : code.drop (brace + 1) = before ++ (indent ++ head) ++ rest := by
      rw [hcode, List.append_assoc, List.append_assoc]
    rw [hcode', List.take_append_of_le_length hn]
  refine ⟨by simp only; omega, ?_, fun i hle hi' => ?_, fun i hlt hi' => ?_⟩
  · exact hline ▸ methodAt?_of_head _ hi hh rest
  · obtain ⟨j, rfl⟩ : ∃ j, i = brace + 1 + (before.length + j) :=
      ⟨i - (brace + 1 + before.length), by simp only at hle; omega⟩
    have hj : j ≤ (indent ++ head).length := by
      simp only [List.length_append] at hi' ⊢
      omega
    -- the declaration has no braces of its own, so the count stays that of its beginning
    have hnot : ∀ {c}, c ∉ indent → c ∉ head → c ∉ (indent ++ head).take j :=
      fun hci hch hc => (List.mem_append.mp (List.mem_of_mem_take hc)).elim hci hch
    have hhead : openBraces ((indent ++ head).take j) = 0 :=
      openBraces_of_not_mem
        (hnot (fun hc => absurd (hi _ hc) (by decide)) hh.not_mem_brace.1)
        (hnot (fun hc => absurd (hi _ hc) (by decide)) hh.not_mem_brace.2)
    rw [h.slice_eq, hbody _ (by simpa using hj), List.take_length_add_append, openBraces_open,
      openBraces_append, hbefore, hhead]
    rfl
  · obtain ⟨n, rfl⟩ : ∃ n, i = brace + 1 + n := ⟨i - (brace + 1), by omega⟩
    have hn : n ≤ (before ++ (indent ++ head)).length := by
      simp only [List.length_append] at hi' ⊢
      omega
    have := hopen _ (List.take_prefix n (before ++ (indent ++ head)))
    rw [h.slice_eq, hbody n hn, openBraces_open]
    omega

theorem exists_directMember {code : Text} {offset : Nat} {m : MethodDeclaration} :
    let body := classBody code offset
    m ∈ methodsFrom 0 0 true (slice code body.1 body.2) →
      bracesBalanced (slice code body.1 body.2) m.start = true →
      ∃ brace, OpensBody code offset brace ∧
        DirectMember code brace { m with start := body.1 + m.start } := by
  intro body hm hb
  rcases classBody_eq code offset with hbody | ⟨brace, h, hbody⟩
  · have hbody : body = (offset, offset) := hbody
    rw [hbody, slice_self] at hm
    cases hm
  · have hbody : body = (brace + 1, brace + 1 + bodyLength 1 (code.drop (brace + 1))) := hbody
    rw [hbody] at hm hb ⊢
    rw [slice_add] at hm hb
    obtain ⟨before, line, htake, -, hs, hm⟩ := of_mem_methodsFrom hm
    obtain ⟨indent, head, rest, rfl, hi, hh, -, hlen⟩ := exists_of_methodAt? hm
    rw [Nat.zero_add] at hs
    have hcode : code.drop (brace + 1) = before ++ (indent ++ (head ++
        (rest ++ (code.drop (brace + 1)).drop (bodyLength 1 (code.drop (brace + 1)))))) := by
      conv_lhs => rw [← List.take_append_drop (bodyLength 1 (code.drop (brace + 1)))
        (code.drop (brace + 1)), htake]
      simp only [List.append_assoc]
    have hopen : ∀ p, p <+: before ++ (indent ++ head) → 0 < 1 + openBraces p := by
      intro p hp
      refine openBraces_inside_body Nat.one_pos (t := code.drop (brace + 1)) (hp.trans ?_)
      rw [htake]
      exact ⟨rest, by simp only [List.append_assoc]⟩
    have hbefore : openBraces before = 0 := by
      rwa [bracesBalanced_iff, htake, hs, List.take_left] at hb
    obtain ⟨modifiers, name, start, length⟩ := m
    simp only at hs hlen hh ⊢
    rw [hs, hlen]
    exact ⟨brace, h, h.directMember hcode hopen hbefore hi hh⟩

/-- The declarations that the dispatcher can call, each where it stands in the source. -/
def ClassDeclaration.members (constructorName source : Text) (d : ClassDeclaration) :
    List MethodDeclaration :=
  let body := classBody (masked source) d.stop
  (handlers constructorName (slice source body.1 body.2)).map fun m =>
    { m with start := body.1 + m.start }

/-- The methods that a scan lists are declared in the class itself, in no function, closure or class
inside it and not behind it, whatever comments and string literals the source has. -/
theorem scanClass_lists_members {constructorName name source : Text} {c : HandlerClass}
    (h : scanClass constructorName name source = some c) :
    ∃ d, firstClass? (masked source) = some d ∧
      c.methods.map (·.name) = (d.members constructorName source).map (·.name) ∧
      ∀ m ∈ d.members constructorName source,
        ∃ brace, OpensBody (masked source) d.stop brace ∧ DirectMember (masked source) brace m := by
  obtain ⟨d, hd, rfl⟩ := Option.map_eq_some_iff.mp h
  refine ⟨d, hd, ?_, fun m hm => ?_⟩
  · simp only [publicMethods, ClassDeclaration.members, List.map_map]
    rfl
  · obtain ⟨m, hmem, rfl⟩ := List.mem_map.mp hm
    obtain ⟨hfound, hhandler⟩ := List.mem_filter.mp hmem
    rw [masked_classBody] at hfound hhandler
    simp only [isHandler, Bool.and_eq_true] at hhandler
    exact exists_directMember hfound hhandler.1.1

/-- A function in a method and one behind the class are not listed; a brace in a string literal
closes nothing. -/
theorem scanClass_lists_members_nested :
    let source := ("<?php\nclass A\n\x7b\n    public function outer()\n    \x7b\n" ++
      "        function inner() \x7b\x7d\n        return '\x7d';\n    \x7d\n" ++
      "    function last() \x7b\x7d\n\x7d\nfunction after() \x7b\x7d\n").toList
    ∃ c, ∃ d : ClassDeclaration, scanClass "__construct".toList "A".toList source = some c ∧
      c.methods.map (·.name) = ["outer".toList, "last".toList] ∧
      (d.members "__construct".toList source).map (·.name) = ["outer".toList, "last".toList] ∧
      ∀ m ∈ d.members "__construct".toList source,
        ∃ brace, OpensBody (masked source) d.stop brace ∧ DirectMember (masked source) brace m := by
  intro source
  obtain ⟨c, hc⟩ : ∃ c, scanClass "__construct".toList "A".toList source = some c :=
    Option.isSome_iff_exists.mp (by decide +kernel)
  have hnames : (scanClass "__construct".toList "A".toList source).map
      (fun c => c.methods.map (·.name)) = some ["outer".toList, "last".toList] := by
    decide +kernel
  rw [hc] at hnames
  have hnames := Option.some.inj hnames
  obtain ⟨d, -, hd, hm⟩ := scanClass_lists_members hc
  exact ⟨c, d, hc, hnames, hd ▸ hnames, hm⟩

end AnnotatedRoutes.Source
