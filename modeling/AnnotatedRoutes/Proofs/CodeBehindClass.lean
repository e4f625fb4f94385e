import AnnotatedRoutes.Proofs.ClassMembers
import AnnotatedRoutes.Proofs.DocblockEnd
import AnnotatedRoutes.Proofs.QualifiedNames
import AnnotatedRoutes.Proofs.SpanLookahead

namespace AnnotatedRoutes.Source

/-- The brace that opens a body behind `offset` is closed: counted from it, no brace is open at some
place behind it. -/
def BodyCloses (code : Text) (offset : Nat) : Prop :=
  ∃ brace stop, OpensBody code offset brace ∧ brace < stop ∧ stop ≤ code.length ∧
    openBraces (slice code brace stop) = 0

theorem OpensBody.eq {code : Text} {offset brace brace' : Nat} (h : OpensBody code offset brace)
    (h' : OpensBody code offset brace') : brace = brace' := by
  have le : ∀ {i j}, OpensBody code offset i → OpensBody code offset j → j ≤ i := by
    intro i j hi hj
    by_contra hlt
    exact hj.first (mem_slice_iff.mpr ⟨i, hi.behind, by omega, hi.isBrace⟩)
  exact Nat.le_antisymm (le h' h) (le h h')

theorem OpensBody.classBody_eq {code : Text} {offset brace : Nat}
    (h : OpensBody code offset brace) :
    classBody code offset = (brace + 1, brace + 1 + bodyLength 1 (code.drop (brace + 1))) := by
  rw [classBody]
  have hd : code.drop offset = slice code offset brace ++ (['{'] ++ code.drop (brace + 1)) := by
    obtain ⟨hlt, hget⟩ := List.getElem?_eq_some_iff.mp h.isBrace
    rw [List.singleton_append, ← hget, List.cons_getElem_drop_succ, slice_append_drop h.behind]
  obtain ⟨n, hn, -⟩ := Text.exists_indexOf?_le (List.cons_ne_nil '{' []) (slice code offset brace)
    (code.drop (brace + 1))
  rw [← hd] at hn
  have hfirst := Text.not_mem_take_of_indexOf? hn
  obtain ⟨u, v, huv, rfl⟩ := Text.exists_append_of_indexOf? hn
  have hbrace : OpensBody code offset (offset + u.length) := by
    refine ⟨Nat.le_add_right _ _, ?_, by rwa [slice_add]⟩
    rw [← List.getElem?_drop, huv]
    simp
  rw [hn, h.eq hbrace]

/-- The part of a body that is closed inside a text does not depend on what follows. -/
theorem bodyLength_of_closed {depth : Nat} {inside after : Text}
    (h : bodyLength depth (inside ++ '}' :: after) = inside.length) (after' : Text) :
    bodyLength depth (inside ++ '}' :: after') = inside.length := by
  induction inside generalizing depth with
  | nil =>
    rcases depth with - | - | depth
    · simp [bodyLength]
    · simp [bodyLength]
    · simp [bodyLength] at h
  | cons c inside ih =>
    rw [List.cons_append] at h ⊢
    by_cases ho : c = '{'
    · subst ho
      rw [bodyLength_open, List.length_cons] at h ⊢
      rw [ih (by omega)]
    · by_cases hc : c = '}'
      · subst hc
        rcases depth with - | - | depth
        · simp [bodyLength] at h
        · simp [bodyLength] at h
        · rw [bodyLength_close, List.length_cons] at h ⊢
          rw [ih (by omega)]
      · rw [bodyLength_other ho hc, List.length_cons] at h ⊢
        rw [ih (by omega)]

/-- A body that is closed ends before the brace that closes it. -/
theorem BodyCloses.exists_inside {code : Text} {offset : Nat} (h : BodyCloses code offset) :
    ∃ before inside after, code = before ++ '{' :: (inside ++ '}' :: after) ∧
      offset ≤ before.length ∧ '{' ∉ before.drop offset ∧
      bodyLength 1 (inside ++ '}' :: after) = inside.length := by
  obtain ⟨brace, stop, hb, hlt, hstop, hopen⟩ := h
  obtain ⟨hlen, hget⟩ := List.getElem?_eq_some_iff.mp hb.isBrace
  have hbefore : (code.take brace).length = brace := List.length_take_of_le hlen.le
  have hcode : code = code.take brace ++ '{' :: code.drop (brace + 1) := by
    rw [← hget, List.cons_getElem_drop_succ, List.take_append_drop]
  obtain ⟨inside, after, hrest, hl, hafter⟩ := exists_of_bodyLength 1 (code.drop (brace + 1))
  rcases hafter with rfl | ⟨after, rfl⟩
  · -- to the end of an open body its brace stays open
    obtain ⟨n, rfl⟩ : ∃ n, stop = brace + 1 + n := ⟨stop - (brace + 1), by omega⟩
    have hp : (code.drop (brace + 1)).take n <+:
        (code.drop (brace + 1)).take (bodyLength 1 (code.drop (brace + 1))) := by
      have hall : bodyLength 1 (code.drop (brace + 1)) = (code.drop (brace + 1)).length := by
        rw [hl, hrest, List.append_nil]
      rw [hall, List.take_length]
      exact List.take_prefix _ _
    have := openBraces_inside_body (Nat.one_pos) hp
    rw [hb.slice_eq, openBraces_open] at hopen
    omega
  · refine ⟨code.take brace, inside, after, hrest ▸ hcode, hbefore.symm ▸ hb.behind, ?_, ?_⟩
    · exact hb.first
    · rw [← hrest, hl]

theorem classBody_of_closed {before inside : Text} {offset : Nat} (hle : offset ≤ before.length)
    (hfirst : '{' ∉ before.drop offset) {after : Text}
    (hl : bodyLength 1 (inside ++ '}' :: after) = inside.length) (after' : Text) :
    classBody (before ++ '{' :: (inside ++ '}' :: after')) offset =
      (before.length + 1, before.length + 1 + inside.length) := by
  have hb : OpensBody (before ++ '{' :: (inside ++ '}' :: after')) offset before.length := by
    refine ⟨hle, by simp, ?_⟩
    rwa [slice, List.take_left]
  have hd : (before ++ '{' :: (inside ++ '}' :: after')).drop (before.length + 1) =
      inside ++ '}' :: after' := by
    rw [← List.drop_drop, List.drop_left]
    rfl
  rw [hb.classBody_eq, hd, bodyLength_of_closed hl]

namespace DeclarationForm

variable {form : DeclarationForm} {u v : Text} {d : Declaration}

/-- A declaration that ends before the end of a text does not depend on what follows. -/
theorem Declares.of_append (h : form.Declares (u ++ v) d) (hlt : d.stop < u.length) (v' : Text) :
    form.Declares (u ++ v') d := by
  obtain ⟨i, hs, hle, hi⟩ := h.line
  have hse := h.start_le_stop
  refine ⟨⟨i, ?_, hle, ?_⟩, ?_, ?_, hse, ?_⟩
  · rw [startsLine_append_iff (by omega)] at hs ⊢
    exact hs
  · rw [slice_append_of_le (by omega)] at hi ⊢
    exact hi
  · have := h.head
    rw [slice_append_of_le hlt.le] at this ⊢
    exact this
  · have := h.stops
    rw [stops_drop_append_iff hlt] at this ⊢
    exact this
  · rw [List.length_append]
    omega

/-- Behind a character that no declaration holds, nothing matters for a declaration before it. -/
theorem first?_of_append (h : form.first? (u ++ v) = some d) {c : Char} {i : Nat}
    (hc : u[i]? = some c) (hstop : d.stop ≤ i)
    (hhead : ∀ {name head}, form.Head name head → c ∉ head) (v' : Text) :
    form.first? (u ++ v') = some d := by
  have hlt : i < u.length := (List.getElem?_eq_some_iff.mp hc).1
  obtain ⟨hd, hmin⟩ := first?_eq_some_iff.mp h
  refine first?_eq_some_iff.mpr ⟨hd.of_append (by omega) v', fun d' h' => ?_⟩
  by_contra hbefore
  have := hd.start_le_stop
  have hstop' : d'.stop ≤ i := by
    by_contra hover
    refine hhead h'.head (mem_slice_iff.mpr ⟨i, by omega, by omega, ?_⟩)
    rw [List.getElem?_append_left hlt, hc]
  exact hbefore (hmin d' (h'.of_append (by omega) v))

end DeclarationForm

theorem ClassHead.not_mem {name head : Text} (h : ClassHead name head) {c : Char}
    (hw : ∀ k ∈ classKeyword :: classModifiers, c ∉ k) (hb : Text.isBlank c = false)
    (hi : isIdentifierChar c = false) : c ∉ head := by
  obtain ⟨_, run, blanks, rfl, hk, -, hbl, hn⟩ := h
  obtain ⟨hkey, hm⟩ := List.forall_mem_cons.mp hw
  have hblank : c ∉ blanks := fun hc => by simp [hbl c hc] at hb
  have hname : c ∉ name := fun hc => by simp [hn.all c hc] at hi
  simp only [List.mem_append, not_or]
  exact ⟨hk.not_mem hm hb, hkey, hblank, hname⟩

theorem lastBefore_append {limit : Nat} {later : List Span} (h : ∀ s ∈ later, limit < s.stop)
    (spans : List Span) : lastBefore limit (spans ++ later) = lastBefore limit spans := by
  have hnone : later.reverse.find? (·.stop ≤ limit) = none := by
    rw [List.find?_eq_none]
    intro s hs
    have := h s (List.mem_reverse.mp hs)
    simpa using this
  rw [lastBefore, lastBefore, List.reverse_append, List.find?_append, hnone, Option.none_or]

/-- Behind a text that contains itself nothing matters for a docblock in it. -/
theorem SelfContained.precedingDocblock_append {u : Text} (hu : SelfContained u) {limit : Nat}
    (hle : limit ≤ u.length) (rest : Text) :
    precedingDocblock (u ++ rest) limit (Span.scan (u ++ rest)) =
      precedingDocblock u limit (Span.scan u) := by
  have hhead : (dropGap ((u ++ rest).take limit).reverse).reverse =
      (dropGap (u.take limit).reverse).reverse := by
    rw [List.take_append_of_le_length hle]
  rw [precedingDocblock_of_head hhead, precedingDocblock_of_head rfl, hu rest,
    lastBefore_append]
  intro s hs
  obtain ⟨r, hr, rfl⟩ := List.mem_map.mp hs
  have hlen := (dropGap_suffix (u.take limit).reverse).length_le
  have := (Span.of_mem_scan hr).1
  simp only [List.length_reverse, List.length_take, Span.shift_stop] at hlen ⊢
  omega

/-- The class that is scanned in a text up to the brace that closes it is scanned in every text that
goes on from there. -/
theorem SelfContained.scanClass_of_closed {u : Text} (hu : SelfContained u) {before inside : Text}
    (hm : masked u = before ++ '{' :: inside ++ ['}']) {after : Text}
    (hl : bodyLength 1 (inside ++ '}' :: after) = inside.length) {d : ClassDeclaration}
    (hle : d.stop ≤ before.length) (hfirst : '{' ∉ before.drop d.stop) {v : Text}
    (hd : firstClass? (masked (u ++ v)) = some d) (constructorName name v' : Text) :
    scanClass constructorName name (u ++ v') = some
      { qualifiedName := name
        comment := precedingDocblock u d.start (Span.scan u)
        methods := publicMethods constructorName
          (slice u (before.length + 1) (before.length + 1 + inside.length)) } := by
  have hcode : ∀ w, masked (u ++ w) = before ++ '{' :: (inside ++ '}' :: masked w) := by
    intro w
    rw [hu.masked_append, hm]
    simp
  have hlen : u.length = before.length + inside.length + 2 := by
    have := congrArg List.length hm
    simp only [length_masked, List.length_append, List.length_cons, List.length_nil] at this
    omega
  have hclass : firstClass? (masked (u ++ v')) = some d := by
    have hbrace : (masked u)[before.length]? = some '{' := by simp [hm]
    have hnone : ∀ {name head}, ClassHead name head → '{' ∉ head :=
      fun h => h.not_mem (by decide) (by decide) (by decide)
    have hsite : classForm.first? (masked u ++ masked v) = some d.site := by
      rw [← hu.masked_append, classForm_first?, hd, Option.map_some]
    have := DeclarationForm.first?_of_append hsite hbrace hle hnone (masked v')
    rw [← hu.masked_append, classForm_first?] at this
    exact Option.map_injective ClassDeclaration.site_injective this
  have hstart : d.start ≤ u.length := by
    have hsite : classForm.first? (masked (u ++ v)) = some d.site := by
      rw [classForm_first?, hd, Option.map_some]
    have : d.start ≤ d.stop :=
      (DeclarationForm.first?_eq_some_iff.mp hsite).1.start_le_stop
    omega
  rw [scanClass_eq, hclass, Option.map_some, declaredClass]
  simp only [hcode v', classBody_of_closed hle hfirst hl]
  rw [hu.precedingDocblock_append hstart, slice_append_of_le (by omega)]

/-- A suffix changes nothing for a class that is closed before it, whatever it opens or declares. -/
theorem scanClass_append {source : Text} {d : ClassDeclaration}
    (hd : firstClass? (masked source) = some d) (hc : BodyCloses (masked source) d.stop)
    (constructorName name suffix : Text) :
    scanClass constructorName name (source ++ suffix) = scanClass constructorName name source := by
  obtain ⟨before, inside, after, hcode, hle, hfirst, hl⟩ := hc.exists_inside
  have hmask : masked source = (before ++ '{' :: inside) ++ '}' :: after := by
    rw [hcode, List.append_assoc, List.cons_append]
  obtain ⟨u, v, rfl, hu, hself⟩ := exists_selfContained_of_masked_brace (Or.inr rfl) hmask
  have hv : ∀ w, u ++ '}' :: w = (u ++ ['}']) ++ w := fun w => by simp
  rw [hv] at hd
  have scanned := hself.scanClass_of_closed hu hl hle hfirst hd constructorName name
  rw [hv v, List.append_assoc, scanned, scanned]

/-- A brace in a string literal of the class, and a suffix that goes on with a heredoc, a further
class and a comment without end. -/
theorem scanClass_append_heredoc :
    let source :=
      "<?php\n/** name=a */\nclass A\n\x7b\nfunction f() \x7b echo \"\x7d\"; \x7d\n\x7d\n<<".toList
    let suffix := "<EOT\n\x7d\nEOT;\nclass B \x7b\x7d \x7d /* '".toList
    firstClass? (masked source) = some ⟨"A".toList, 20, 27⟩ ∧ BodyCloses (masked source) 27 ∧
      scanClass "A".toList "B".toList (source ++ suffix) =
        some ⟨"B".toList, "/** name=a */".toList, [⟨"f".toList, []⟩]⟩ := by
  intro source suffix
  have hd : firstClass? (masked source) = some ⟨"A".toList, 20, 27⟩ := by decide +kernel
  have hc : BodyCloses (masked source) 27 :=
    ⟨28, 58, ⟨by decide, by decide +kernel, by decide +kernel⟩, by decide, by decide +kernel,
      by decide +kernel⟩
  exact ⟨hd, hc, (scanClass_append hd hc _ _ suffix).trans (by decide +kernel)⟩

end AnnotatedRoutes.Source
