import AnnotatedRoutes.Proofs.MethodReading

namespace AnnotatedRoutes.Source

theorem methodAt?_eq_none {offset : Nat} {line t : Text} {c : Char}
    (h : line.dropWhile isIndent = c :: t) (hc : isIdentifierChar c = false) :
    methodAt? offset line = none := by
  by_contra hne
  obtain ⟨m, hm⟩ := Option.ne_none_iff_exists'.mp hne
  obtain ⟨indent, head, rest, rfl, hi, hh, -, -⟩ := exists_of_methodAt? hm
  rw [dropWhile_run hi (hh.stops_isIndent rest)] at h
  obtain ⟨d, hd, hid⟩ := hh.exists_first
  have hcd : some d = some c := by rw [← hd, ← List.head?_cons (a := c) (l := t), ← h,
    List.head?_append, hd, Option.some_or]
  obtain rfl := Option.some.inj hcd
  simp [hc] at hid

theorem methodsFrom_of_none {offset : Nat} {lineStart : Bool} {c : Char} {t : Text}
    (h : lineStart = true → methodAt? offset (c :: t) = none) :
    methodsFrom offset 0 lineStart (c :: t) = methodsFrom (offset + 1) 0 (c = '\n') t := by
  have hn : (if lineStart then methodAt? offset (c :: t) else none) = none := by
    cases lineStart with
    | false => rfl
    | true => exact h rfl
  rw [methodsFrom, hn]

theorem dropWhile_isIndent_blank {u : Text} (hu : ∀ c ∈ u, c = ' ' ∨ c = '\n') (t : Text) :
    ∃ v, (u ++ '\n' :: t).dropWhile isIndent = '\n' :: v := by
  induction u with
  | nil => exact ⟨t, by simp [isIndent]⟩
  | cons c u ih =>
    obtain ⟨hc, hrest⟩ := List.forall_mem_cons.mp hu
    rcases hc with rfl | rfl
    · simpa [isIndent] using ih hrest
    · exact ⟨u ++ '\n' :: t, by simp [isIndent]⟩

/-- Nothing is declared on blank lines. -/
theorem methodsFrom_blank {u : Text} (hu : ∀ c ∈ u, c = ' ' ∨ c = '\n') (offset : Nat)
    (lineStart : Bool) (t : Text) :
    methodsFrom offset 0 lineStart (u ++ '\n' :: t) =
      methodsFrom (offset + u.length + 1) 0 true t := by
  induction u generalizing offset lineStart with
  | nil =>
    obtain ⟨v, hv⟩ := dropWhile_isIndent_blank hu t
    exact methodsFrom_of_none fun _ => methodAt?_eq_none hv (by decide)
  | cons c u ih =>
    obtain ⟨v, hv⟩ := dropWhile_isIndent_blank hu t
    have hrest := (List.forall_mem_cons.mp hu).2
    rw [List.cons_append] at hv ⊢
    rw [methodsFrom_of_none fun _ => methodAt?_eq_none hv (by decide), ih hrest, List.length_cons]
    congr 1
    omega

/-- What belongs to a declaration found before is passed over. -/
theorem methodsFrom_skip (u : Text) (c : Char) (offset : Nat) (lineStart : Bool) (t : Text) :
    methodsFrom offset (u.length + 1) lineStart (u ++ c :: t) =
      methodsFrom (offset + u.length + 1) 0 (c = '\n') t := by
  induction u generalizing offset lineStart with
  | nil => rfl
  | cons d u ih =>
    rw [List.cons_append, List.length_cons, methodsFrom, ih]
    congr 1
    omega

/-- A declaration at the beginning of a line is found, and the search goes on behind its
parenthesis. -/
theorem methodsFrom_of_head {indent head name : Text} {modifiers : List Text} (offset : Nat)
    (hi : ∀ c ∈ indent, isIndent c = true) (hh : MethodHead modifiers name head) (t : Text) :
    methodsFrom offset 0 true (indent ++ (head ++ t)) =
      ⟨modifiers, name, offset, indent.length + head.length⟩ ::
        methodsFrom (offset + (indent ++ head).length) 0 false t := by
  have hm := methodAt?_of_head offset hi hh t
  obtain ⟨u, hu⟩ : ∃ u, indent ++ head = u ++ ['('] := by
    obtain ⟨run, blanks, sign, gap, rfl, -⟩ := hh
    exact ⟨indent ++ (run ++ (functionKeyword ++ (blanks ++ (sign ++ (name ++ gap))))), by simp⟩
  have hlen : indent.length + head.length = u.length + 1 := by
    rw [← List.length_append, hu, List.length_append, List.length_singleton]
  have htext : indent ++ (head ++ t) = u ++ '(' :: t := by
    rw [← List.append_assoc, hu, List.append_assoc, List.singleton_append]
  have hoffset : offset + (indent ++ head).length = offset + u.length + 1 := by
    rw [List.length_append, hlen, Nat.add_assoc]
  rw [htext] at hm
  rw [htext, hlen, hoffset]
  rw [hlen] at hm
  cases u with
  | nil =>
    rw [List.nil_append] at hm ⊢
    rw [methodsFrom, if_pos rfl, hm]
    rfl
  | cons c u =>
    rw [List.cons_append] at hm ⊢
    rw [methodsFrom, if_pos rfl, hm]
    simp only [List.length_cons, Nat.add_sub_cancel, methodsFrom_skip]
    congr 2
    omega

theorem length_le_of_methodAt? {offset : Nat} {u t : Text} {m : MethodDeclaration}
    (h : methodAt? offset (u ++ '}' :: t) = some m) : m.length ≤ u.length := by
  obtain ⟨indent, head, rest, ht, hi, hh, -, hlen⟩ := exists_of_methodAt? h
  have hnot : '}' ∉ indent ++ head := by
    rw [List.mem_append, not_or]
    exact ⟨fun hm => absurd (hi _ hm) (by decide), hh.not_mem_brace.2⟩
  by_contra hlt
  rw [← List.append_assoc] at ht
  have hget : (indent ++ head)[u.length]? = (indent ++ head ++ rest)[u.length]? :=
    (List.getElem?_append_left (by rw [List.length_append]; omega)).symm
  refine hnot (List.mem_of_getElem? (i := u.length) ?_)
  rw [hget, ← ht]
  simp

/-- Whether a line begins behind a text, given whether one begins with it. -/
def lineStartAfter (lineStart : Bool) (t : Text) : Bool := t.foldl (fun _ c => c = '\n') lineStart

@[simp] theorem lineStartAfter_concat (lineStart : Bool) (t : Text) (c : Char) :
    lineStartAfter lineStart (t ++ [c]) = decide (c = '\n') := by
  rw [lineStartAfter, List.foldl_concat]

/-- Where no declaration reaches from one text into the next, they are searched one after the
other. -/
theorem methodsFrom_append {u v : Text}
    (huv : ∀ y, y <:+ u → y ≠ [] → ∀ i m, methodAt? i (y ++ v) = some m → m.length ≤ y.length)
    (offset : Nat) {skip : Nat} (hs : skip ≤ u.length) (lineStart : Bool) :
    ∃ found, methodsFrom offset skip lineStart (u ++ v) =
        found ++ methodsFrom (offset + u.length) 0 (lineStartAfter lineStart u) v ∧
      ∀ m ∈ found, offset ≤ m.start ∧ m.start < offset + u.length := by
  induction u generalizing offset skip lineStart with
  | nil =>
    obtain rfl : skip = 0 := by simpa using hs
    exact ⟨[], rfl, by simp⟩
  | cons c u ih =>
    -- what is found behind the first character, whatever of it is passed over
    have later : ∀ {skip : Nat}, skip ≤ u.length →
        ∃ found, methodsFrom (offset + 1) skip (c = '\n') (u ++ v) =
            found ++
              methodsFrom (offset + (c :: u).length) 0 (lineStartAfter lineStart (c :: u)) v ∧
          ∀ m ∈ found, offset ≤ m.start ∧ m.start < offset + (c :: u).length := by
      intro skip hskip
      have hsuffix : ∀ y, y <:+ u → y <:+ c :: u := fun y h => h.trans (List.suffix_cons c u)
      obtain ⟨found, hf, hm⟩ :=
        ih (fun y hy => huv y (hsuffix y hy)) (offset + 1) hskip (c = '\n')
      refine ⟨found, ?_, fun m h => ?_⟩
      · rw [hf, List.length_cons, Nat.add_right_comm]
        rfl
      · have := hm m h
        rw [List.length_cons]
        omega
    cases skip with
    | succ skip => exact later (by simpa using hs)
    | zero =>
      rw [List.cons_append, methodsFrom]
      split
      next => exact later (Nat.zero_le _)
      next m hm =>
        split at hm
        next =>
          have hle := huv (c :: u) List.suffix_rfl (List.cons_ne_nil c u) offset m hm
          rw [List.length_cons] at hle
          have hskip : m.length - 1 ≤ u.length := by omega
          obtain ⟨found, hf, hfound⟩ := later hskip
          obtain ⟨_, _, _, _, _, _, hstart, _⟩ := exists_of_methodAt? hm
          refine ⟨m :: found, by rw [hf, List.cons_append], ?_⟩
          refine List.forall_mem_cons.mpr ⟨?_, hfound⟩
          rw [hstart, List.length_cons]
          omega
        next => simp at hm

/-- No declaration reaches over a closing brace. -/
theorem methodsFrom_brace (u : Text) (offset : Nat) {skip : Nat} (hs : skip ≤ u.length)
    (lineStart : Bool) (t : Text) :
    ∃ found, methodsFrom offset skip lineStart (u ++ '}' :: t) =
        found ++ methodsFrom (offset + u.length + 1) 0 false t ∧
      ∀ m ∈ found, offset ≤ m.start ∧ m.start < offset + u.length := by
  have hline : ('}' :: t).dropWhile isIndent = '}' :: t := by simp [isIndent]
  obtain ⟨found, hf, hm⟩ := methodsFrom_append (v := '}' :: t)
    (fun _ _ _ _ _ => length_le_of_methodAt?) offset hs lineStart
  refine ⟨found, ?_, hm⟩
  rw [hf, methodsFrom_of_none fun _ => methodAt?_eq_none hline (by decide)]
  rfl

end AnnotatedRoutes.Source
