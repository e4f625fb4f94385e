import AnnotatedRoutes.Annotation.Docblock
import AnnotatedRoutes.Proofs.AnnotationOrigin
import AnnotatedRoutes.Proofs.TextShape
import Mathlib.Data.List.Infix

namespace AnnotatedRoutes

namespace Text

theorem Unbroken.of_sublist {t u : Text} (hu : u.Unbroken) (h : t.Sublist u) : t.Unbroken :=
  fun c hc => hu c (h.subset hc)

theorem unbroken_of_mem_lines (t : Text) : ∀ l ∈ lines t, l.Unbroken := by
  fun_induction lines t with
  | case1 => simp
  | case2 t ih => exact List.forall_mem_cons.mpr ⟨List.forall_mem_nil _, ih⟩
  | case3 c t hne hb ih => exact List.forall_mem_cons.mpr ⟨List.forall_mem_nil _, ih⟩
  | case4 c t hne hb hn ih =>
    have hc : isLineBreak c = false := by simpa using hb
    exact List.forall_mem_singleton.mpr (List.forall_mem_singleton.mpr hc)
  | case5 c t hne hb l ls hl ih =>
    have hc : isLineBreak c = false := by simpa using hb
    rw [hl] at ih
    obtain ⟨h, hs⟩ := List.forall_mem_cons.mp ih
    exact List.forall_mem_cons.mpr ⟨unbroken_cons.mpr ⟨hc, h⟩, hs⟩

theorem prefix_of_lines_eq_cons {t l : Text} {ls : List Text} (h : lines t = l :: ls) :
    l <+: t := by
  fun_induction lines t generalizing l ls with
  | case1 => simp at h
  | case2 t ih => cases h; exact List.nil_prefix
  | case3 c t hne hb ih => cases h; exact List.nil_prefix
  | case4 c t hne hb hn ih => cases h; exact ⟨t, rfl⟩
  | case5 c t hne hb l' ls' hl ih =>
    cases h
    exact List.cons_prefix_cons.mpr ⟨rfl, ih hl⟩

theorem infix_of_mem_lines (t : Text) : ∀ l ∈ lines t, l <:+: t := by
  fun_induction lines t with
  | case1 => simp
  | case2 t ih =>
    have ht : t <:+: '\r' :: '\n' :: t := (List.suffix_append ['\r', '\n'] t).isInfix
    exact List.forall_mem_cons.mpr ⟨List.nil_infix, fun l hl => (ih l hl).trans ht⟩
  | case3 c t hne hb ih =>
    have ht : t <:+: c :: t := (List.suffix_cons c t).isInfix
    exact List.forall_mem_cons.mpr ⟨List.nil_infix, fun l hl => (ih l hl).trans ht⟩
  | case4 c t hne hb hn ih => exact List.forall_mem_singleton.mpr ⟨[], t, rfl⟩
  | case5 c t hne hb l ls hl ih =>
    have ht : t <:+: c :: t := (List.suffix_cons c t).isInfix
    rw [hl] at ih
    obtain ⟨-, hs⟩ := List.forall_mem_cons.mp ih
    have hp : c :: l <+: c :: t := List.cons_prefix_cons.mpr ⟨rfl, prefix_of_lines_eq_cons hl⟩
    exact List.forall_mem_cons.mpr ⟨hp.isInfix, fun m hm => (hs m hm).trans ht⟩

theorem isSuffix_trimStartOf (p : Char → Bool) (t : Text) : t.trimStartOf p <:+ t :=
  List.dropWhile_suffix p

theorem isPrefix_trimEndOf (p : Char → Bool) (t : Text) : t.trimEndOf p <+: t := by
  have h := List.dropWhile_suffix p (l := t.reverse)
  rwa [← List.reverse_prefix, List.reverse_reverse] at h

theorem isInfix_trim (t : Text) : t.trim <:+: t :=
  (isPrefix_trimEndOf isBlank _).isInfix.trans (isSuffix_trimStartOf isBlank t).isInfix

end Text

namespace Docblock

theorem isSuffix_withoutOpening (t : Text) : withoutOpening t <:+ t := by
  rw [withoutOpening]
  cases h : Text.after? opening t with
  | none => exact List.suffix_rfl
  | some r =>
    rw [Text.after?_eq_some_iff.mp h]
    exact List.suffix_append opening r

theorem isPrefix_withoutClosing (t : Text) : withoutClosing t <+: t := by
  rw [withoutClosing, Text.before?]
  cases h : Text.after? closing.reverse t.reverse with
  | none => exact List.prefix_rfl
  | some r =>
    have hs : r <:+ t.reverse := by
      rw [Text.after?_eq_some_iff.mp h]
      exact List.suffix_append _ r
    rwa [← List.reverse_prefix, List.reverse_reverse] at hs

theorem isSuffix_withoutGutter (t : Text) : withoutGutter t <:+ t := by
  unfold withoutGutter
  split
  · exact List.suffix_cons _ _
  · exact List.suffix_rfl

theorem isInfix_content (t : Text) : content t <:+: withoutClosing (withoutOpening t.trim) :=
  (Text.isInfix_trim _).trans ((isSuffix_withoutGutter _).isInfix.trans (Text.isInfix_trim _))

theorem unbroken_of_mem_lines {comment l : Text} (h : l ∈ lines comment) : l.Unbroken := by
  obtain ⟨raw, hr, rfl⟩ := List.mem_map.mp (List.mem_filter.mp h).1
  have hc : content raw <:+: raw :=
    (isInfix_content raw).trans ((isPrefix_withoutClosing _).isInfix.trans
      ((isSuffix_withoutOpening _).isInfix.trans (Text.isInfix_trim raw)))
  exact (Text.unbroken_of_mem_lines comment raw hr).of_sublist hc.sublist

end Docblock

/-- Every text of a route is of a kind. -/
structure Route.Has (P : Text → Prop) (r : Route) : Prop where
  method : P r.method
  url : P r.url
  name : P r.name
  asserts : ∀ call ∈ r.asserts, P call
  values : ∀ call ∈ r.values, P call

structure Action.Has (P : Text → Prop) (a : Action) : Prop where
  routes : ∀ r ∈ a.routes, r.Has P
  acl : ∀ rule ∈ a.acl, P rule

/-- A route as annotations give it: no text has a line break, and calls begin with their keyword. -/
structure Route.Written (r : Route) : Prop where
  method : r.method.Unbroken
  url : r.url.Unbroken
  name : r.name.Unbroken
  asserts : ∀ a ∈ r.asserts, a.Unbroken ∧ "->assert".toList <+: a
  values : ∀ v ∈ r.values, v.Unbroken ∧ "->value".toList <+: v

structure Action.Written (a : Action) : Prop where
  routes : ∀ r ∈ a.routes, r.Written
  acl : ∀ rule ∈ a.acl, rule.Unbroken

theorem Route.Written.has {r : Route} (h : r.Written) : r.Has Text.Unbroken :=
  ⟨h.method, h.url, h.name, fun a ha => (h.asserts a ha).1, fun v hv => (h.values v hv).1⟩

theorem Action.Written.has {a : Action} (h : a.Written) : a.Has Text.Unbroken :=
  ⟨fun r hr => (h.routes r hr).has, h.acl⟩

namespace Directive

theorem isInfix_of_valueOf? {key line v : Text} (h : valueOf? key line = some v) :
    v <:+: line := by
  obtain ⟨t, ht, rfl⟩ := Option.map_eq_some_iff.mp h
  rw [Text.after?_eq_some_iff.mp ht]
  exact (Text.isInfix_trim t).trans (List.suffix_append _ t).isInfix

theorem routingName_eq_nil_or_gives (ls : List Text) :
    routingName ls = [] ∨ Gives ls "name".toList (routingName ls) := by
  rw [routingName]
  cases hf : ls.findSome? (valueOf? "name".toList) with
  | none => exact Or.inl rfl
  | some v => exact Or.inr (List.exists_of_findSome?_eq_some hf)

/-- A kind of texts that the reading of annotations keeps to. -/
structure Kept (P : Text → Prop) : Prop where
  empty : P []
  part : ∀ t u, t <:+: u → P u → P t
  call : ∀ l, P l → P (chainArrow ++ l)

namespace Kept

variable {P : Text → Prop} {ls : List Text}

theorem gives (kept : Kept P) (h : ∀ l ∈ ls, P l) {key v : Text} (hv : Gives ls key v) : P v := by
  obtain ⟨l, hl, hv⟩ := hv
  exact kept.part v l (isInfix_of_valueOf? hv) (h l hl)

theorem routingName (kept : Kept P) (h : ∀ l ∈ ls, P l) : P (routingName ls) :=
  (routingName_eq_nil_or_gives ls).elim (fun he => he ▸ kept.empty) (kept.gives h)

theorem urls (kept : Kept P) (h : ∀ l ∈ ls, P l) : ∀ url ∈ (readAction ls).urls, P url :=
  fun url hm => kept.gives h ((readFrom_readAction ls).urls url hm)

theorem route (kept : Kept P) (h : ∀ l ∈ ls, P l) {r : Route}
    (hr : r.ReadFrom ls (readAction ls).urls) : r.Has P := by
  have chained : ∀ keyword call, Chains ls keyword call → P call := by
    rintro keyword call ⟨l, hl, -, rfl⟩
    exact kept.call l (h l hl)
  constructor
  case method => exact hr.method.elim (fun he => he ▸ kept.empty) (kept.gives h)
  case url => exact hr.url.elim (fun he => he ▸ kept.empty) (kept.urls h _)
  case name => exact hr.name.elim (fun he => he ▸ kept.empty) (kept.gives h)
  case asserts => exact fun call hc => chained _ call (hr.asserts call hc)
  case values => exact fun call hc => chained _ call (hr.values call hc)

theorem action (kept : Kept P) (h : ∀ l ∈ ls, P l) : (readAction ls).action.Has P := by
  have hr := (readFrom_readAction ls).action
  exact ⟨fun r hm => kept.route h (hr.routes r hm), fun rule hm => h rule (hr.acl rule hm)⟩

end Kept

theorem kept_unbroken : Kept Text.Unbroken where
  empty := List.forall_mem_nil _
  part _ _ ht hu := hu.of_sublist ht.sublist
  call _ hl := Text.unbroken_append.mpr ⟨by decide, hl⟩

theorem prefix_of_chains {ls : List Text} {keyword call : Text} (h : Chains ls keyword call) :
    chainArrow ++ keyword <+: call := by
  obtain ⟨l, -, hk, rfl⟩ := h
  exact (List.prefix_append_right_inj _).mpr (List.isPrefixOf_iff_prefix.mp hk)

structure Reading.Written (r : Reading) : Prop where
  draft : ∀ d, r.block = .route d → d.Written
  action : r.action.Written
  urls : ∀ url ∈ r.urls, url.Unbroken

theorem written_readAction {ls : List Text} (h : ∀ l ∈ ls, l.Unbroken) :
    (readAction ls).Written := by
  have hr := readFrom_readAction ls
  have route : ∀ {r : Route}, r.ReadFrom ls (readAction ls).urls → r.Written := by
    intro r hr
    have has := kept_unbroken.route h hr
    exact ⟨has.method, has.url, has.name,
      fun call hc => ⟨has.asserts call hc, prefix_of_chains (hr.asserts call hc)⟩,
      fun call hc => ⟨has.values call hc, prefix_of_chains (hr.values call hc)⟩⟩
  exact ⟨fun d hd => route (hr.draft d hd),
    ⟨fun r hm => route (hr.action.routes r hm), (kept_unbroken.action h).acl⟩,
    kept_unbroken.urls h⟩

end Directive

end AnnotatedRoutes
