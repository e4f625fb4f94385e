import AnnotatedRoutes.Routing.Route

namespace AnnotatedRoutes

/-- Controllers by routing name, and routing names by URL. -/
structure RoutingModel where
  controllers : Keyed Text Controller := ∅
  urlIndex : Keyed Text Text := ∅
  deriving DecidableEq

/-- The elements with the keys that no earlier element has. -/
def firstOfEach {α κ : Type} [DecidableEq κ] (key : α → κ) : List α → List α
  | [] => []
  | a :: as => a :: (firstOfEach key as).filter (key · ≠ key a)

namespace RoutingModel

/-- The last routing name to claim a URL owns it. -/
def registerUrl (m : RoutingModel) (routingName url : Text) : RoutingModel :=
  { m with urlIndex := m.urlIndex.put url routingName }

def registerUrls (m : RoutingModel) (routingName : Text) (urls : List Text) : RoutingModel :=
  urls.foldl (·.registerUrl routingName) m

/-- The URL index, greatest URL first. -/
def sortedIndex (m : RoutingModel) : List (Text × Text) :=
  m.urlIndex.entries.mergeSort fun a b => Text.le b.1 a.1

/-- Every routing name that owns a URL with the greatest URL it owns, greatest URL first. -/
def reducedIndex (m : RoutingModel) : List (Text × Text) := firstOfEach Prod.snd m.sortedIndex

end RoutingModel

end AnnotatedRoutes
