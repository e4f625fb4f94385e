import AnnotatedRoutes.Annotation.Directive
import Mathlib.Data.List.Basic

namespace AnnotatedRoutes

/-- A line gives a value under a key. -/
def Directive.Gives (ls : List Text) (key value : Text) : Prop :=
  ∃ l ∈ ls, Directive.valueOf? key l = some value

/-- A line that begins with a keyword is chained as a call. -/
def Directive.Chains (ls : List Text) (keyword call : Text) : Prop :=
  ∃ l ∈ ls, Text.startsWith l keyword = true ∧ call = Directive.chainArrow ++ l

open Directive

/-- A route that some lines describe while some URLs are registered. -/
structure Route.ReadFrom (ls urls : List Text) (r : Route) : Prop where
  method : r.method = [] ∨ Gives ls "method".toList r.method
  url : r.url = [] ∨ r.url ∈ urls
  name : r.name = [] ∨ Gives ls "name".toList r.name
  asserts : ∀ call ∈ r.asserts, Chains ls "assert".toList call
  values : ∀ call ∈ r.values, Chains ls "value".toList call

structure Action.ReadFrom (ls urls : List Text) (a : Action) : Prop where
  routes : ∀ r ∈ a.routes, r.ReadFrom ls urls
  acl : ∀ rule ∈ a.acl, rule ∈ ls

theorem Route.readFrom_empty (ls urls : List Text) : Route.ReadFrom ls urls {} :=
  ⟨Or.inl rfl, Or.inl rfl, Or.inl rfl, List.forall_mem_nil _, List.forall_mem_nil _⟩

theorem Route.ReadFrom.mono {ls urls urls' : List Text} {r : Route} (h : r.ReadFrom ls urls)
    (hu : urls ⊆ urls') : r.ReadFrom ls urls' :=
  { h with url := h.url.imp_right fun hr => hu hr }

namespace Directive

/-- What a directive says about the line that it was read from. -/
def SaidBy (line : Text) : Directive → Prop
  | .name v => valueOf? "name".toList line = some v
  | .url v => valueOf? "url".toList line = some v
  | .method v => valueOf? "method".toList line = some v
  | .assertion call => Text.startsWith line "assert".toList = true ∧ call = chainArrow ++ line
  | .value call => Text.startsWith line "value".toList = true ∧ call = chainArrow ++ line
  | .openRoute | .openAcl | .close | .other => True

theorem saidBy_ofLine (line : Text) : (ofLine line).SaidBy line := by
  unfold ofLine
  split
  · trivial
  split
  · trivial
  split
  · trivial
  split
  next v hv => exact hv
  split
  next v hv => exact hv
  split
  next v hv => exact hv
  split
  next hk => exact ⟨hk, rfl⟩
  split
  next hk => exact ⟨hk, rfl⟩
  · trivial

namespace Reading

/-- Everything that was read stands in some lines, and all URLs of routes are registered. -/
structure ReadFrom (ls : List Text) (r : Reading) : Prop where
  draft : ∀ d, r.block = .route d → d.ReadFrom ls r.urls
  action : r.action.ReadFrom ls r.urls
  urls : ∀ url ∈ r.urls, Gives ls "url".toList url

variable {ls : List Text} {r : Reading}

theorem ReadFrom.outside (h : r.ReadFrom ls) {b : Block} (hb : ∀ d, b ≠ .route d) :
    ReadFrom ls { r with block := b } :=
  ⟨fun d hd => absurd hd (hb d), h.action, h.urls⟩

theorem ReadFrom.inRoute (h : r.ReadFrom ls) {d : Route} (hd : d.ReadFrom ls r.urls) :
    ReadFrom ls { r with block := .route d } := by
  refine ⟨?_, h.action, h.urls⟩
  intro d' he
  cases he
  exact hd

theorem ReadFrom.close (h : r.ReadFrom ls) {d : Route} (hd : d.ReadFrom ls r.urls) :
    ReadFrom ls { r with
      block := .none
      action := { r.action with routes := r.action.routes ++ [d] } } := by
  have hroutes : ∀ route ∈ r.action.routes ++ [d], route.ReadFrom ls r.urls :=
    List.forall_mem_append.mpr ⟨h.action.routes, List.forall_mem_singleton.mpr hd⟩
  exact ⟨by simp, ⟨hroutes, h.action.acl⟩, h.urls⟩

theorem ReadFrom.register (h : r.ReadFrom ls) {url : Text} (hu : Gives ls "url".toList url) :
    ReadFrom ls { r with urls := r.urls ++ [url] } := by
  have hs : r.urls ⊆ r.urls ++ [url] := List.subset_append_left _ _
  have hurls : ∀ u ∈ r.urls ++ [url], Gives ls "url".toList u :=
    List.forall_mem_append.mpr ⟨h.urls, List.forall_mem_singleton.mpr hu⟩
  exact ⟨fun d hd => (h.draft d hd).mono hs,
    ⟨fun route hr => (h.action.routes route hr).mono hs, h.action.acl⟩, hurls⟩

theorem ReadFrom.addRule (h : r.ReadFrom ls) {rule : Text} (hr : rule ∈ ls) :
    (r.addRule rule).ReadFrom ls := by
  have hacl : ∀ line ∈ r.action.acl ++ [rule], line ∈ ls :=
    List.forall_mem_append.mpr ⟨h.action.acl, List.forall_mem_singleton.mpr hr⟩
  exact ⟨h.draft, ⟨h.action.routes, hacl⟩, h.urls⟩

theorem ReadFrom.apply (h : r.ReadFrom ls) {line : Text} (hl : line ∈ ls) {d : Directive}
    (hd : d.SaidBy line) : (r.apply d).ReadFrom ls := by
  unfold Reading.apply
  split
  next => exact h.inRoute (Route.readFrom_empty ls r.urls)
  next => exact h.outside (by simp)
  next =>
    split
    next draft hb _ _ => exact h.close (h.draft draft hb)
    next draft v hb _ _ =>
      have := h.draft draft hb
      exact h.inRoute { this with name := Or.inr ⟨line, hl, hd⟩ }
    next draft v hb _ _ =>
      have hr := h.register ⟨line, hl, hd⟩
      have := hr.draft draft hb
      exact hr.inRoute { this with url := Or.inr (by simp) }
    next draft v hb _ _ =>
      have := h.draft draft hb
      exact h.inRoute { this with method := Or.inr ⟨line, hl, hd⟩ }
    next draft call hb _ _ =>
      have := h.draft draft hb
      exact h.inRoute { this with
        asserts := List.forall_mem_append.mpr
          ⟨this.asserts, List.forall_mem_singleton.mpr ⟨line, hl, hd⟩⟩ }
    next draft call hb _ _ =>
      have := h.draft draft hb
      exact h.inRoute { this with
        values := List.forall_mem_append.mpr
          ⟨this.values, List.forall_mem_singleton.mpr ⟨line, hl, hd⟩⟩ }
    next => exact h

theorem ReadFrom.read (h : r.ReadFrom ls) {line : Text} (hl : line ∈ ls) :
    (r.read line).ReadFrom ls := by
  unfold Reading.read
  split
  next =>
    split
    · exact h.outside (by simp)
    · exact h.addRule hl
  next => exact h.apply hl (saidBy_ofLine line)

end Reading

/-- Reading adds nothing to the lines, and registers every URL that it gives a route. -/
theorem readFrom_readAction (ls : List Text) : (readAction ls).ReadFrom ls := by
  have empty : Reading.ReadFrom ls {} :=
    ⟨by simp, ⟨List.forall_mem_nil _, List.forall_mem_nil _⟩, List.forall_mem_nil _⟩
  exact List.foldlRecOn ls Reading.read empty fun r h line hl => h.read hl

end Directive

end AnnotatedRoutes
