import AnnotatedRoutes.Proofs.AnnotationOrigin
import AnnotatedRoutes.Proofs.ModelWrites

namespace AnnotatedRoutes

/-- Every URL of the action's routes is in an index. A route may have no URL. -/
def Action.IndexedIn (index : Keyed Text Text) (a : Action) : Prop :=
  ∀ r ∈ a.routes, r.url ≠ [] → r.url ∈ index.keys

def Controller.IndexedIn (index : Keyed Text Text) (k : Controller) : Prop :=
  ∀ name a, k.actions.get? name = some a → a.IndexedIn index

theorem HandlerMethod.url_mem_reading (d : HandlerMethod) {r : Route}
    (hr : r ∈ d.reading.action.routes) (hne : r.url ≠ []) : r.url ∈ d.reading.urls :=
  ((Directive.readFrom_readAction _).action.routes r hr).url.resolve_left hne

theorem Controller.IndexedIn.mono {index index' : Keyed Text Text} {k : Controller}
    (h : k.IndexedIn index) (hs : index.keys ⊆ index'.keys) : k.IndexedIn index' :=
  fun name a ha r hr hne => hs (h name a ha r hr hne)

namespace RoutingModel

/-- Owners of URLs have controllers, and URLs of routes have owners. -/
structure Intact (m : RoutingModel) : Prop where
  owners : ∀ url n, m.urlIndex.get? url = some n → n ∈ m.controllers.keys
  urls : ∀ n k, m.controllers.get? n = some k → k.IndexedIn m.urlIndex

variable {m : RoutingModel}

theorem intact_empty : Intact {} :=
  ⟨fun url n h => by simp at h, fun n k h => by simp at h⟩

theorem Intact.resolved (h : m.Intact) : m.Resolved := fun url n hu =>
  Option.isSome_iff_exists.mp (Keyed.mem_keys_iff.mp (h.owners url n hu))

theorem Intact.put (h : m.Intact) {n : Text} {k : Controller} (hk : k.IndexedIn m.urlIndex) :
    Intact { m with controllers := m.controllers.put n k } := by
  constructor
  case owners => exact fun url owner hu => Keyed.mem_keys_put.mpr (Or.inr (h.owners url owner hu))
  case urls =>
    intro owner k' hk'
    rw [Keyed.get?_put] at hk'
    split at hk'
    next =>
      cases Option.some.inj hk'
      exact hk
    next => exact h.urls owner k' hk'

theorem Intact.change (h : m.Intact) {n : Text} {f : Controller → Controller}
    (hf : ∀ k, m.controllers.get? n = some k → (f k).IndexedIn m.urlIndex) :
    (m.change n f).Intact := by
  unfold RoutingModel.change
  split
  next => exact h
  next k hk => exact h.put (hf k hk)

theorem keys_urlIndex_subset_registerUrl (m : RoutingModel) (n url : Text) :
    m.urlIndex.keys ⊆ (m.registerUrl n url).urlIndex.keys :=
  fun _ hu => Keyed.mem_keys_put.mpr (Or.inr hu)

theorem Intact.registerUrl (h : m.Intact) {n : Text} (hn : n ∈ m.controllers.keys) (url : Text) :
    (m.registerUrl n url).Intact := by
  constructor
  case owners =>
    intro u owner hu
    rw [RoutingModel.registerUrl, Keyed.get?_put] at hu
    split at hu
    next =>
      cases Option.some.inj hu
      exact hn
    next => exact h.owners u owner hu
  case urls =>
    intro owner k hk
    exact (h.urls owner k hk).mono (m.keys_urlIndex_subset_registerUrl n url)

/-- What a write needs: a controller to claim a URL for, and the URLs of an action to store. -/
def Admits (m : RoutingModel) : Write → Prop
  | .claim n _ => n ∈ m.controllers.keys
  | .store _ _ a => a.IndexedIn m.urlIndex
  | .enter _ _ | .order _ => True

theorem Intact.write (h : m.Intact) {w : Write} (hw : m.Admits w) : (m.write w).Intact := by
  cases w with
  | enter n className =>
    refine h.put ?_
    cases hk : m.controllers.get? n with
    | none => exact fun name a ha => by simp at ha
    | some k => exact h.urls n k hk
  | claim n url => exact h.registerUrl hw url
  | store n name a =>
    refine h.change fun k hk => ?_
    intro other b hb
    rw [Keyed.get?_put] at hb
    split at hb
    next =>
      cases Option.some.inj hb
      exact hw
    next => exact h.urls n k hk other b hb
  | order n =>
    refine h.change fun k hk => ?_
    intro name a ha
    rw [Controller.orderActions, Keyed.get?_sortBy] at ha
    exact h.urls n k hk name a ha

/-- Each of some writes has what it needs when its turn comes. -/
def AdmitsAll (m : RoutingModel) : List Write → Prop
  | [] => True
  | w :: ws => m.Admits w ∧ (m.write w).AdmitsAll ws

theorem Intact.writeAll_take {ws : List Write} (h : m.Intact) (hw : m.AdmitsAll ws) (k : Nat) :
    (m.writeAll (ws.take k)).Intact := by
  induction ws generalizing m k with
  | nil => simpa [writeAll] using h
  | cons w ws ih =>
    cases k with
    | zero => exact h
    | succ k => exact ih (h.write hw.1) hw.2 k

theorem admitsAll_append {ws ws' : List Write} :
    m.AdmitsAll (ws ++ ws') ↔ m.AdmitsAll ws ∧ (m.writeAll ws).AdmitsAll ws' := by
  induction ws generalizing m with
  | nil => simp [AdmitsAll, writeAll]
  | cons w ws ih =>
    rw [List.cons_append, AdmitsAll, ih, AdmitsAll, and_assoc]
    rfl

theorem admitsAll_claims {n : Text} (hn : n ∈ m.controllers.keys) (urls : List Text) :
    m.AdmitsAll (urls.map (Write.claim n)) := by
  induction urls generalizing m with
  | nil => trivial
  | cons url urls ih => exact ⟨hn, ih (m := m.registerUrl n url) hn⟩

theorem mem_keys_of_claimed {n url : Text} {urls : List Text} (h : url ∈ urls) :
    url ∈ (m.writeAll (urls.map (Write.claim n))).urlIndex.keys := by
  have hk : url ∈ (urls.map fun url => (url, n)).map Prod.fst := by simpa using h
  have hl : Keyed.lastUnder url (urls.map fun url => (url, n)) ≠ none :=
    mt Keyed.lastUnder_eq_none_iff.mp (not_not.mpr hk)
  obtain ⟨owner, ho⟩ := Option.ne_none_iff_exists'.mp hl
  rw [writeAll_claims, Keyed.mem_keys_iff, Keyed.get?_putAll, ho]
  rfl

/-- The URLs that a method gives its routes are claimed when its action is stored. -/
theorem admitsAll_method {n : Text} (hn : n ∈ m.controllers.keys) (d : HandlerMethod) :
    m.AdmitsAll (d.writes n) := by
  refine admitsAll_append.mpr ⟨admitsAll_claims hn _, ?_, trivial⟩
  intro r hr hne
  exact mem_keys_of_claimed (d.url_mem_reading hr hne)

theorem admitsAll_methods {n : Text} {k : Controller} (hk : m.controllers.get? n = some k)
    (methods : List HandlerMethod) : m.AdmitsAll (methods.flatMap (·.writes n)) := by
  induction methods generalizing m k with
  | nil => trivial
  | cons d methods ih =>
    have hn : n ∈ m.controllers.keys := Keyed.mem_keys_iff.mpr (by rw [hk]; rfl)
    refine admitsAll_append.mpr ⟨admitsAll_method hn d, ?_⟩
    rw [writeAll_method hk]
    exact ih (k := { k with actions := k.actions.put d.name d.reading.action })
      (Keyed.get?_put_self ..)

theorem admitsAll_writes (m : RoutingModel) (c : HandlerClass) : m.AdmitsAll c.writes := by
  unfold HandlerClass.writes
  split
  next => trivial
  next =>
    have hget : (m.write (.enter c.routingName c.qualifiedName)).controllers.get? c.routingName =
        some ((m.controllers.get? c.routingName).getD { className := c.qualifiedName }) :=
      Keyed.get?_put_self ..
    exact ⟨trivial, admitsAll_append.mpr ⟨admitsAll_methods hget c.methods, trivial, trivial⟩⟩

end RoutingModel

end AnnotatedRoutes
