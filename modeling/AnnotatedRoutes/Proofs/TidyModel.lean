import AnnotatedRoutes.Proofs.WrittenModel
import Mathlib.Data.List.DropRight

namespace AnnotatedRoutes

namespace Text

/-- Nothing is left to trim. -/
theorem trimmed_trim (t : Text) : (trim t).Trimmed := by
  have stops : ∀ u : Text, ∀ c, (u.dropWhile isBlank).head? = some c → isBlank c = false :=
    fun u => dropWhile_eq_self_iff_head.mp (List.dropWhile_idempotent isBlank u)
  refine trimmed_iff.mpr ⟨fun c hc => ?_, fun c hc => ?_⟩
  · obtain ⟨u, hu⟩ := isPrefix_trimEndOf isBlank (trimStart t)
    refine stops t c ?_
    change (trimStart t).head? = some c
    rw [← hu, List.head?_append]
    exact congrArg (·.or u.head?) hc
  · rw [trim, trimEnd, trimEndOf, List.getLast?_reverse] at hc
    exact stops _ c hc

/-- The text stands on one line, without blanks around it. -/
structure Tidy (t : Text) : Prop where
  unbroken : t.Unbroken
  trimmed : t.Trimmed

theorem tidy_nil : Tidy [] := ⟨List.forall_mem_nil _, rfl⟩

theorem tidy_trim {t : Text} (h : t.Unbroken) : (trim t).Tidy :=
  ⟨h.of_sublist (isInfix_trim t).sublist, trimmed_trim t⟩

end Text

theorem Docblock.tidy_of_mem_lines {comment l : Text} (h : l ∈ lines comment) :
    l.Tidy ∧ l ≠ [] := by
  obtain ⟨hc, hne⟩ := List.mem_filter.mp h
  obtain ⟨raw, -, rfl⟩ := List.mem_map.mp hc
  exact ⟨⟨unbroken_of_mem_lines h, Text.trimmed_trim _⟩, by simpa using hne⟩

namespace Directive

theorem tidy_of_gives {ls : List Text} (h : ∀ l ∈ ls, l.Unbroken) {key v : Text}
    (hv : Gives ls key v) : v.Tidy := by
  obtain ⟨l, hl, hv⟩ := hv
  obtain ⟨t, ht, rfl⟩ := Option.map_eq_some_iff.mp hv
  rw [Text.after?_eq_some_iff.mp ht] at hl
  exact Text.tidy_trim (Text.unbroken_append.mp (h _ hl)).2

theorem tidy_call {l : Text} (h : l.Tidy) (hne : l ≠ []) : Text.Tidy (chainArrow ++ l) where
  unbroken := kept_unbroken.call l h.unbroken
  trimmed := h.trimmed.append hne (c := '-') rfl (by decide)

/-- Whatever a docblock holds, its lines are tidy, and with them everything that is read. -/
theorem tidy_readAction (comment : Text) :
    (readAction (Docblock.lines comment)).action.Has Text.Tidy ∧
      ∀ url ∈ (readAction (Docblock.lines comment)).urls, url.Tidy := by
  have unbroken : ∀ l ∈ Docblock.lines comment, l.Unbroken :=
    fun l hl => Docblock.unbroken_of_mem_lines hl
  have read := readFrom_readAction (Docblock.lines comment)
  have urls : ∀ url ∈ (readAction (Docblock.lines comment)).urls, url.Tidy :=
    fun url hu => tidy_of_gives unbroken (read.urls url hu)
  have called : ∀ {keyword call}, Chains (Docblock.lines comment) keyword call → call.Tidy := by
    rintro keyword call ⟨l, hl, -, rfl⟩
    obtain ⟨htidy, hne⟩ := Docblock.tidy_of_mem_lines hl
    exact tidy_call htidy hne
  refine ⟨⟨fun r hr => ?_, fun rule hr => ?_⟩, urls⟩
  · have from_ := read.action.routes r hr
    constructor
    case method =>
      exact from_.method.elim (fun he => he ▸ Text.tidy_nil) (tidy_of_gives unbroken)
    case url => exact from_.url.elim (fun he => he ▸ Text.tidy_nil) (urls r.url)
    case name => exact from_.name.elim (fun he => he ▸ Text.tidy_nil) (tidy_of_gives unbroken)
    case asserts => exact fun call hc => called (from_.asserts call hc)
    case values => exact fun call hc => called (from_.values call hc)
  · exact (Docblock.tidy_of_mem_lines (read.action.acl rule hr)).1

end Directive

theorem HandlerClass.tidy_routingName (c : HandlerClass) : c.routingName.Tidy := by
  rcases Directive.routingName_eq_nil_or_gives (Docblock.lines c.comment) with he | hg
  · rw [HandlerClass.routingName, he]
    exact Text.tidy_nil
  · exact Directive.tidy_of_gives (fun _ hl => Docblock.unbroken_of_mem_lines hl) hg

namespace RoutingModel

/-- Every routing name, URL, method, bind name, chained call and access rule of the model is
tidy. -/
structure Tidy (m : RoutingModel) : Prop where
  routingNames : ∀ n ∈ m.controllers.keys, n.Tidy
  owners : ∀ url n, m.urlIndex.get? url = some n → url.Tidy ∧ n.Tidy
  actions : ∀ n k, m.controllers.get? n = some k →
    ∀ name a, k.actions.get? name = some a → a.Has Text.Tidy

theorem tidy_addClasses (classes : List HandlerClass) : (addClasses {} classes).Tidy := by
  constructor
  case routingNames =>
    intro n hn
    rw [Keyed.mem_keys_iff, Option.isSome_iff_exists, exists_get?_addClasses_iff] at hn
    obtain ⟨c, hc⟩ := hn
    obtain ⟨-, rfl, -⟩ := mem_classesUnder.mp hc
    exact c.tidy_routingName
  case owners =>
    intro url n h
    rw [get?_urlIndex_addClasses] at h
    obtain ⟨c, hc, d, -, hu⟩ :=
      exists_of_mem_registrations (Keyed.mem_of_lastUnder_eq_some h)
    obtain ⟨-, rfl, -⟩ := mem_classesUnder.mp hc
    exact ⟨(Directive.tidy_readAction d.comment).2 url hu, c.tidy_routingName⟩
  case actions =>
    intro n k hk name a ha
    have hwritten := actions_get?_addClasses classes n name
    rw [hk, Option.bind_some, ha] at hwritten
    obtain ⟨c, -, d, -, -, rfl⟩ :=
      exists_of_mem_actionsUnder (Keyed.mem_of_lastUnder_eq_some hwritten.symm)
    exact (Directive.tidy_readAction d.comment).1

end RoutingModel

end AnnotatedRoutes
