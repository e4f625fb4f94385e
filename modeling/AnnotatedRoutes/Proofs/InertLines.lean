import AnnotatedRoutes.Proofs.AnnotationSegments
import Mathlib.Data.List.Induction

namespace AnnotatedRoutes.Directive

/-- The lines end inside an access block: a line opens it that is no rule of an earlier one, and no
line closes it. -/
def EndInAcl (lines : List Text) : Prop :=
  ∃ before opening rules, ∃ _ : lines = before ++ opening :: rules, ¬ EndInAcl before ∧
    Text.startsWith opening aclOpening = true ∧ ∀ l ∈ rules, l ≠ blockClosing
termination_by lines.length
decreasing_by simp [*]

/-- The lines end inside a route block: a line opens it that is no rule, and no line closes it or
opens another block in its place. -/
def EndInRoute (lines : List Text) : Prop :=
  ∃ before opening inside, lines = before ++ opening :: inside ∧ ¬ EndInAcl before ∧
    Text.startsWith opening routeOpening = true ∧ ∀ l ∈ inside, endsRoute l = false

/-- The beginnings of the lines that mean something outside of access blocks. -/
def keywords : List Text :=
  [routeOpening, aclOpening, "name=".toList, "url=".toList, "method=".toList, "assert".toList,
    "value".toList]

/-- A line that means nothing, unless it is a rule. -/
structure Unknown (line : Text) : Prop where
  ne_closing : line ≠ blockClosing
  keyword : ∀ k ∈ keywords, Text.startsWith line k = false

section Position

variable {lines : List Text} {line : Text}

/-- A block that is open at the end was open before the last line, or is opened by it. -/
theorem exists_opening_concat {P : List Text → Prop} {opens stays : Text → Prop} :
    (∃ before opening rest, lines ++ [line] = before ++ opening :: rest ∧ P before ∧
        opens opening ∧ ∀ l ∈ rest, stays l) ↔
      (∃ before opening rest, lines = before ++ opening :: rest ∧ P before ∧ opens opening ∧
        ∀ l ∈ rest, stays l) ∧ stays line ∨ P lines ∧ opens line := by
  constructor
  · rintro ⟨before, opening, rest, he, hP, ho, hs⟩
    rcases List.eq_nil_or_concat rest with rfl | ⟨rest, last, rfl⟩
    · obtain ⟨rfl, h⟩ := List.append_inj' he rfl
      obtain rfl := List.singleton_inj.mp h
      exact Or.inr ⟨hP, ho⟩
    · rw [List.concat_eq_append, ← List.cons_append, ← List.append_assoc] at he
      obtain ⟨rfl, h⟩ := List.append_inj' he rfl
      obtain rfl := List.singleton_inj.mp h
      have hs := List.forall_mem_append.mp (List.concat_eq_append ▸ hs)
      exact Or.inl ⟨⟨before, opening, rest, rfl, hP, ho, hs.1⟩, hs.2 _ (by simp)⟩
  · rintro (⟨⟨before, opening, rest, rfl, hP, ho, hs⟩, hl⟩ | ⟨hP, ho⟩)
    · exact ⟨before, opening, rest ++ [line], by simp, hP, ho,
        List.forall_mem_append.mpr ⟨hs, by simpa using hl⟩⟩
    · exact ⟨lines, line, [], rfl, hP, ho, by simp⟩

theorem endInAcl_iff : EndInAcl lines ↔
    ∃ before opening rules, lines = before ++ opening :: rules ∧ ¬ EndInAcl before ∧
      Text.startsWith opening aclOpening = true ∧ ∀ l ∈ rules, l ≠ blockClosing := by
  conv_lhs => rw [EndInAcl]
  simp only [exists_prop]

theorem endInAcl_concat : EndInAcl (lines ++ [line]) ↔
    EndInAcl lines ∧ line ≠ blockClosing ∨
      ¬ EndInAcl lines ∧ Text.startsWith line aclOpening = true := by
  rw [endInAcl_iff, exists_opening_concat (P := fun lines => ¬ EndInAcl lines), ← endInAcl_iff]

theorem endInRoute_concat : EndInRoute (lines ++ [line]) ↔
    EndInRoute lines ∧ endsRoute line = false ∨
      ¬ EndInAcl lines ∧ Text.startsWith line routeOpening = true :=
  exists_opening_concat (P := fun lines => ¬ EndInAcl lines)

theorem ofLine_of_unknown (h : Unknown line) : ofLine line = .other := by
  have hvalue : ∀ {key v : Text}, key ++ ['='] ∈ keywords → valueOf? key line ≠ some v := by
    intro key v hk hv
    obtain ⟨t, rfl, -⟩ := exists_of_valueOf? hv
    have hno := h.keyword _ hk
    rw [Text.startsWith, List.isPrefixOf_iff_prefix.mpr (List.prefix_append _ t)] at hno
    cases hno
  have hstarts : ∀ {k : Text}, k ∈ keywords → Text.startsWith line k ≠ true :=
    fun hk hs => by simp [h.keyword _ hk] at hs
  have hsaid := saidBy_ofLine line
  cases hl : ofLine line with
  | openRoute => exact absurd (ofLine_eq_openRoute_iff.mp hl) (hstarts (by decide))
  | openAcl => exact absurd (ofLine_eq_openAcl_iff.mp hl) (hstarts (by decide))
  | close => exact absurd (ofLine_eq_close_iff.mp hl) h.ne_closing
  | name v => exact absurd (hl ▸ hsaid) (hvalue (by decide))
  | url v => exact absurd (hl ▸ hsaid) (hvalue (by decide))
  | method v => exact absurd (hl ▸ hsaid) (hvalue (by decide))
  | assertion call => exact absurd (hl ▸ hsaid).1 (hstarts (by decide))
  | value call => exact absurd (hl ▸ hsaid).1 (hstarts (by decide))
  | other => rfl

end Position

namespace Reading

variable {r : Reading} {line : Text}

/-- What a line does to the open block. -/
theorem block_read (r : Reading) (line : Text) :
    ((r.read line).block = .acl ↔
      r.block = .acl ∧ line ≠ blockClosing ∨
        r.block ≠ .acl ∧ Text.startsWith line aclOpening = true) ∧
    ((∃ d, (r.read line).block = .route d) ↔
      (∃ d, r.block = .route d) ∧ endsRoute line = false ∨
        r.block ≠ .acl ∧ Text.startsWith line routeOpening = true) := by
  have hends : endsRoute line = false ↔
      ofLine line ≠ .close ∧ ofLine line ≠ .openRoute ∧ ofLine line ≠ .openAcl := by
    simp [endsRoute, ofLine_eq_close_iff, ofLine_eq_openRoute_iff, ofLine_eq_openAcl_iff, and_assoc]
  rw [hends, ← ofLine_eq_openAcl_iff, ← ofLine_eq_openRoute_iff]
  cases hb : r.block with
  | acl =>
    by_cases hl : line = blockClosing <;> simp [read, addRule, hb, hl]
  | none => cases hl : ofLine line <;> simp [read, apply, hb, hl]
  | route d => cases hl : ofLine line <;> simp [read, apply, hb, hl]

theorem read_of_unknown (hr : r.block ≠ .acl) (h : Unknown line) : r.read line = r := by
  cases hb : r.block with
  | acl => exact absurd hb hr
  | none | route d => simp [read, apply, hb, ofLine_of_unknown h]

theorem read_of_none (hr : r.block = .none) (h : Text.startsWith line routeOpening = false)
    (h' : Text.startsWith line aclOpening = false) : r.read line = r := by
  have hroute : ¬ Text.startsWith line routeOpening = true := by simp [h]
  have hacl : ¬ Text.startsWith line aclOpening = true := by simp [h']
  have hread := read_outside r hroute hacl
  rwa [← hr] at hread

end Reading

/-- The block that is open in the reading is the one that the lines leave open. -/
theorem block_readAction (lines : List Text) :
    ((readAction lines).block = .acl ↔ EndInAcl lines) ∧
      ((∃ d, (readAction lines).block = .route d) ↔ EndInRoute lines) := by
  induction lines using List.reverseRecOn with
  | nil =>
    have hacl : ¬ EndInAcl [] := by
      rw [endInAcl_iff]
      simp
    have hroute : ¬ EndInRoute [] := by simp [EndInRoute]
    simp [readAction, hacl, hroute]
  | append_singleton lines line ih =>
    obtain ⟨hacl, hroute⟩ := (readAction lines).block_read line
    have hlast : readAction (lines ++ [line]) = (readAction lines).read line := by
      rw [readAction, List.foldl_concat]
      rfl
    rw [hlast, hacl, hroute, ih.2, endInAcl_concat, endInRoute_concat, ← ih.1]
    exact ⟨Iff.rfl, Iff.rfl⟩

/-- Outside of access blocks an unknown line may be put between the lines of a method, and outside
of all blocks any line that opens none: the action and the registered URLs stay the same. -/
theorem readAction_insert {before : List Text} {line : Text} (hacl : ¬ EndInAcl before)
    (h : Unknown line ∨ ¬ EndInRoute before ∧ Text.startsWith line routeOpening = false ∧
      Text.startsWith line aclOpening = false) (after : List Text) :
    readAction (before ++ line :: after) = readAction (before ++ after) := by
  obtain ⟨hblock, hroute⟩ := block_readAction before
  have hread : (readAction before).read line = readAction before := by
    rcases h with hunknown | ⟨hout, hno⟩
    · exact Reading.read_of_unknown (mt hblock.mp hacl) hunknown
    · refine Reading.read_of_none ?_ hno.1 hno.2
      cases hb : (readAction before).block with
      | none => rfl
      | acl => exact absurd (hblock.mp hb) hacl
      | route d => exact absurd (hroute.mp ⟨d, hb⟩) hout
  calc readAction (before ++ line :: after)
      = after.foldl Reading.read ((readAction before).read line) := by
        rw [readAction, List.foldl_append]
        rfl
    _ = after.foldl Reading.read (readAction before) := by rw [hread]
    _ = readAction (before ++ after) := List.foldl_append.symm

/-- A rule that looks like an opening opens nothing. In the route after it an unknown line says
nothing, and after the end of the route neither does a URL. -/
theorem readAction_insert_past_rule :
    let before := ["@acl(".toList, "@route(".toList, ")".toList, "@route(".toList]
    let outside := before ++ [")".toList]
    let after := ["url=/a".toList, ")".toList, "@acl(".toList]
    ¬ EndInAcl before ∧ Unknown "colour=red".toList ∧
      readAction (before ++ "colour=red".toList :: after) = readAction (before ++ after) ∧
      ¬ EndInAcl outside ∧ ¬ EndInRoute outside ∧
        readAction (outside ++ "url=/b".toList :: after) = readAction (outside ++ after) := by
  intro before outside after
  have hacl : ¬ EndInAcl before := (block_readAction before).1.not.mp (by decide)
  have hacl' : ¬ EndInAcl outside := (block_readAction outside).1.not.mp (by decide)
  have hroute' : ¬ EndInRoute outside :=
    (block_readAction outside).2.not.mp (not_exists.mpr fun d => nofun)
  have hunknown : Unknown "colour=red".toList := ⟨by decide, by decide⟩
  exact ⟨hacl, hunknown, readAction_insert hacl (Or.inl hunknown) after, hacl', hroute',
    readAction_insert hacl' (Or.inr ⟨hroute', by decide, by decide⟩) after⟩

end AnnotatedRoutes.Directive
