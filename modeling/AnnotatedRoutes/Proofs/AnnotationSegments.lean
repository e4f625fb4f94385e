import AnnotatedRoutes.Proofs.AnnotationOrigin
import AnnotatedRoutes.Proofs.DocblockRoundTrip

namespace AnnotatedRoutes.Directive

/-- A segment of annotation lines: its opening line is left out, and so is what ends it. -/
inductive Segment where
  | acl (rules : List Text)
  | route (lines : List Text) (closed : Bool)
  deriving DecidableEq

/-- Whether a line ends a route segment: it closes it, or it opens another segment in its place. -/
def endsRoute (line : Text) : Bool :=
  line = blockClosing || Text.startsWith line routeOpening || Text.startsWith line aclOpening

/-- The segments of some lines. The line that closes a segment stands outside of all of them. -/
def segments : List Text → List Segment
  | [] => []
  | line :: rest =>
    if Text.startsWith line aclOpening then
      .acl (rest.takeWhile (· ≠ blockClosing)) :: segments (rest.dropWhile (· ≠ blockClosing))
    else if Text.startsWith line routeOpening then
      .route (rest.takeWhile (!endsRoute ·))
          ((rest.dropWhile (!endsRoute ·)).head? = some blockClosing) ::
        segments (rest.dropWhile (!endsRoute ·))
    else segments rest
termination_by lines => lines.length
decreasing_by
  · exact Nat.lt_succ_of_le (List.dropWhile_suffix _).length_le
  · exact Nat.lt_succ_of_le (List.dropWhile_suffix _).length_le
  · exact Nat.lt_succ_self _

/-- The last value that some lines give under a key, or else the value from before. -/
def lastValue (key : Text) (lines : List Text) (before : Text) : Text :=
  (lines.filterMap (valueOf? key)).getLast?.getD before

/-- The lines that begin with a keyword, each chained as a call. -/
def calls (keyword : Text) (lines : List Text) : List Text :=
  (lines.filter (Text.startsWith · keyword)).map (chainArrow ++ ·)

/-- The values that some lines give for the URL. -/
def urlsOf (lines : List Text) : List Text := lines.filterMap (valueOf? "url".toList)

/-- A route and what some lines say about it. -/
def describe (d : Route) (lines : List Text) : Route where
  method := lastValue "method".toList lines d.method
  url := lastValue "url".toList lines d.url
  name := lastValue "name".toList lines d.name
  asserts := d.asserts ++ calls "assert".toList lines
  values := d.values ++ calls "value".toList lines

namespace Segment

/-- The route of a segment, if the segment is closed. -/
def routes : Segment → List Route
  | .acl _ => []
  | .route lines closed => if closed then [describe {} lines] else []

def rules : Segment → List Text
  | .acl rules => rules
  | .route _ _ => []

def urls : Segment → List Text
  | .acl _ => []
  | .route lines _ => urlsOf lines

end Segment

/-- Whether a directive is about the route that is being read. -/
def AboutRoute : Directive → Prop
  | .name _ | .url _ | .method _ | .assertion _ | .value _ => True
  | .openRoute | .openAcl | .close | .other => False

section Line

variable {line : Text}

theorem exists_of_valueOf? {key v : Text} (h : valueOf? key line = some v) :
    ∃ t, line = key ++ ['='] ++ t ∧ v = Text.trim t := by
  obtain ⟨t, ht, rfl⟩ := Option.map_eq_some_iff.mp h
  exact ⟨t, Text.after?_eq_some_iff.mp ht, rfl⟩

/-- A line is read as a directive about the route exactly if the line says it. -/
theorem ofLine_eq_iff {d : Directive} (hd : d.AboutRoute) : ofLine line = d ↔ d.SaidBy line := by
  refine ⟨fun h => h ▸ saidBy_ofLine line, fun h => ?_⟩
  cases d with
  | openRoute | openAcl | close | other => exact hd.elim
  | name v =>
    obtain ⟨t, rfl, rfl⟩ := exists_of_valueOf? h
    exact ofLine_name t
  | url v =>
    obtain ⟨t, rfl, rfl⟩ := exists_of_valueOf? h
    exact ofLine_url t
  | method v =>
    obtain ⟨t, rfl, rfl⟩ := exists_of_valueOf? h
    exact ofLine_method t
  | assertion call =>
    obtain ⟨hs, rfl⟩ := h
    exact ofLine_assert (List.isPrefixOf_iff_prefix.mp hs)
  | value call =>
    obtain ⟨hs, rfl⟩ := h
    exact ofLine_value (List.isPrefixOf_iff_prefix.mp hs)

theorem valueOf?_name (line : Text) :
    valueOf? "name".toList line = match ofLine line with
      | .name v => some v
      | _ => none :=
  Option.ext fun v =>
    (ofLine_eq_iff (d := .name v) trivial).symm.trans (by cases ofLine line <;> simp)

theorem valueOf?_url (line : Text) :
    valueOf? "url".toList line = match ofLine line with
      | .url v => some v
      | _ => none :=
  Option.ext fun v =>
    (ofLine_eq_iff (d := .url v) trivial).symm.trans (by cases ofLine line <;> simp)

theorem valueOf?_method (line : Text) :
    valueOf? "method".toList line = match ofLine line with
      | .method v => some v
      | _ => none :=
  Option.ext fun v =>
    (ofLine_eq_iff (d := .method v) trivial).symm.trans (by cases ofLine line <;> simp)

theorem calls_singleton {keyword : Text} {said : Option Text}
    (h : ∀ call, said = some call ↔
      Text.startsWith line keyword = true ∧ call = chainArrow ++ line) :
    calls keyword [line] = said.toList := by
  cases said with
  | none =>
    have hs : Text.startsWith line keyword = false := by simpa using h (chainArrow ++ line)
    simp [calls, hs]
  | some call =>
    obtain ⟨hs, rfl⟩ := (h call).mp rfl
    simp [calls, hs]

theorem calls_assert (line : Text) :
    calls "assert".toList [line] = (match ofLine line with
      | .assertion call => some call
      | _ => none).toList :=
  calls_singleton fun call =>
    Iff.trans (by cases ofLine line <;> simp) (ofLine_eq_iff (d := .assertion call) trivial)

theorem calls_value (line : Text) :
    calls "value".toList [line] = (match ofLine line with
      | .value call => some call
      | _ => none).toList :=
  calls_singleton fun call =>
    Iff.trans (by cases ofLine line <;> simp) (ofLine_eq_iff (d := .value call) trivial)

theorem of_ofLine (line : Text) :
    (ofLine line = .openRoute → Text.startsWith line routeOpening = true) ∧
      (ofLine line = .openAcl → Text.startsWith line aclOpening = true) ∧
        (ofLine line = .close → line = blockClosing) := by
  unfold ofLine
  split
  next h => exact ⟨fun _ => h, nofun, nofun⟩
  split
  next h => exact ⟨nofun, fun _ => h, nofun⟩
  split
  next h => exact ⟨nofun, nofun, fun _ => h⟩
  repeat' split
  all_goals exact ⟨nofun, nofun, nofun⟩

theorem ofLine_eq_openRoute_iff :
    ofLine line = .openRoute ↔ Text.startsWith line routeOpening = true := by
  refine ⟨(of_ofLine line).1, fun h => ?_⟩
  obtain ⟨t, rfl⟩ := List.isPrefixOf_iff_prefix.mp h
  rfl

theorem ofLine_eq_openAcl_iff :
    ofLine line = .openAcl ↔ Text.startsWith line aclOpening = true := by
  refine ⟨(of_ofLine line).2.1, fun h => ?_⟩
  obtain ⟨t, rfl⟩ := List.isPrefixOf_iff_prefix.mp h
  rfl

theorem ofLine_eq_close_iff : ofLine line = .close ↔ line = blockClosing := by
  refine ⟨(of_ofLine line).2.2, ?_⟩
  rintro rfl
  rfl

end Line

theorem lastValue_cons (key line : Text) (lines : List Text) (before : Text) :
    lastValue key (line :: lines) before = lastValue key lines (lastValue key [line] before) := by
  cases hv : valueOf? key line with
  | none => simp [lastValue, hv]
  | some v => simp [lastValue, hv, List.getLast?_cons]

theorem calls_cons (keyword line : Text) (lines : List Text) :
    calls keyword (line :: lines) = calls keyword [line] ++ calls keyword lines := by
  rw [calls, calls, calls, ← List.map_append, ← List.filter_append, List.singleton_append]

theorem urlsOf_cons (line : Text) (lines : List Text) :
    urlsOf (line :: lines) = urlsOf [line] ++ urlsOf lines := by
  rw [urlsOf, urlsOf, urlsOf, ← List.filterMap_append, List.singleton_append]

theorem lastValue_singleton (key line before : Text) :
    lastValue key [line] before = (valueOf? key line).getD before := by
  cases hv : valueOf? key line <;> simp [lastValue, hv]

theorem describe_nil (d : Route) : describe d [] = d := by
  simp only [describe, lastValue, calls, List.filterMap_nil, List.getLast?_nil, Option.getD_none,
    List.filter_nil, List.map_nil, List.append_nil]

theorem urlsOf_nil : urlsOf [] = [] := rfl

theorem describe_cons (d : Route) (line : Text) (lines : List Text) :
    describe d (line :: lines) = describe (describe d [line]) lines := by
  simp only [describe, lastValue_cons _ line lines, calls_cons _ line lines, List.append_assoc]

namespace Reading

/-- A line inside a route segment adds what it says to the route, and registers its URL. -/
theorem read_inside (r : Reading) (d : Route) {line : Text} (h : endsRoute line = false) :
    read { r with block := .route d } line =
      { r with block := .route (describe d [line]), urls := r.urls ++ urlsOf [line] } := by
  have hu : urlsOf [line] = (valueOf? "url".toList line).toList := by
    cases hv : valueOf? "url".toList line <;> simp only [urlsOf, List.filterMap, hv] <;> rfl
  simp only [endsRoute, Bool.or_eq_false_iff, decide_eq_false_iff_not] at h
  rw [read_in_route, hu]
  simp only [describe, lastValue_singleton, valueOf?_name, valueOf?_url, valueOf?_method,
    calls_assert, calls_value]
  cases hl : ofLine line with
  | openRoute => simp [ofLine_eq_openRoute_iff.mp hl] at h
  | openAcl => simp [ofLine_eq_openAcl_iff.mp hl] at h
  | close => simp [ofLine_eq_close_iff.mp hl] at h
  | _ => simp [apply]

theorem foldl_read_inside (r : Reading) (d : Route) {lines : List Text}
    (h : ∀ l ∈ lines, endsRoute l = false) :
    lines.foldl read { r with block := .route d } =
      { r with block := .route (describe d lines), urls := r.urls ++ urlsOf lines } := by
  induction lines generalizing r d with
  | nil => rw [List.foldl_nil, describe_nil, urlsOf_nil, List.append_nil]
  | cons line lines ih =>
    obtain ⟨hl, h⟩ := List.forall_mem_cons.mp h
    rw [List.foldl_cons, read_inside r d hl, ih { r with urls := r.urls ++ urlsOf [line] } _ h,
      describe_cons d line lines, urlsOf_cons line lines, List.append_assoc]

/-- A line that opens no segment says nothing outside of them. -/
theorem read_outside (r : Reading) {line : Text} (hr : ¬ Text.startsWith line routeOpening = true)
    (ha : ¬ Text.startsWith line aclOpening = true) :
    read { r with block := .none } line = { r with block := .none } := by
  have hr := mt ofLine_eq_openRoute_iff.mp hr
  have ha := mt ofLine_eq_openAcl_iff.mp ha
  change apply { r with block := .none } (ofLine line) = _
  cases hl : ofLine line with
  | openRoute => exact absurd hl hr
  | openAcl => exact absurd hl ha
  | _ => rfl

theorem read_openAcl (r : Reading) {line : Text} (h : Text.startsWith line aclOpening = true) :
    read { r with block := .none } line = { r with block := .acl } := by
  change apply { r with block := .none } (ofLine line) = _
  rw [ofLine_eq_openAcl_iff.mpr h]
  rfl

theorem read_openRoute (r : Reading) {line : Text} (h : Text.startsWith line routeOpening = true) :
    read { r with block := .none } line = { r with block := .route {} } := by
  change apply { r with block := .none } (ofLine line) = _
  rw [ofLine_eq_openRoute_iff.mpr h]
  rfl

/-- A line that opens a segment opens it in place of an open route segment. -/
theorem read_opening (r : Reading) (d : Route) {line : Text} (he : endsRoute line = true)
    (hc : line ≠ blockClosing) :
    read { r with block := .route d } line = read { r with block := .none } line := by
  simp only [endsRoute, hc, decide_false, Bool.false_or, Bool.or_eq_true] at he
  change apply { r with block := .route d } (ofLine line) =
    apply { r with block := .none } (ofLine line)
  rcases he with he | he
  · rw [ofLine_eq_openRoute_iff.mpr he]
    rfl
  · rw [ofLine_eq_openAcl_iff.mpr he]
    rfl

/-- What a reading comes to, open block aside, if some segments follow. -/
structure Says (r : Reading) (ss : List Segment) (r' : Reading) : Prop where
  routes : r'.action.routes = r.action.routes ++ ss.flatMap (·.routes)
  acl : r'.action.acl = r.action.acl ++ ss.flatMap (·.rules)
  urls : r'.urls = r.urls ++ ss.flatMap (·.urls)

/-- An open block counts no more once the line after its segment is read as if it were closed. -/
theorem Says.of_head {r r' : Reading} {b : Block} {ss : List Segment} {after : List Text}
    (h : Says r' ss (after.foldl read { r' with block := .none }))
    (hnil : after = [] → r' = r)
    (hhead : ∀ l, after.head? = some l →
      read { r with block := b } l = read { r' with block := .none } l) :
    Says r' ss (after.foldl read { r with block := b }) := by
  cases after with
  | nil =>
    obtain rfl := hnil rfl
    exact ⟨h.routes, h.acl, h.urls⟩
  | cons l rest =>
    rw [List.foldl_cons, hhead l rfl]
    exact h

theorem says_acl {r : Reading} {ss : List Segment} {rules after : List Text}
    (hrules : ∀ rule ∈ rules, rule ≠ blockClosing)
    (hend : ∀ l, after.head? = some l → l = blockClosing)
    (ih : ∀ r, Says r ss (after.foldl read { r with block := .none })) :
    Says r (.acl rules :: ss) ((rules ++ after).foldl read { r with block := .acl }) := by
  let r' : Reading := { r with action := { r.action with acl := r.action.acl ++ rules } }
  have h : Says r' ss (after.foldl read { r' with block := .acl }) := by
    refine (ih r').of_head (fun _ => rfl) fun l hl => ?_
    obtain rfl := hend l hl
    rfl
  rw [List.foldl_append, foldl_read_rules r hrules]
  exact ⟨h.routes, by rw [h.acl]; simp [r', Segment.rules], h.urls⟩

theorem says_route {r : Reading} {ss : List Segment} {inside after : List Text}
    (hinside : ∀ l ∈ inside, endsRoute l = false)
    (hend : ∀ l, after.head? = some l → endsRoute l = true)
    (ih : ∀ r, Says r ss (after.foldl read { r with block := .none })) :
    Says r (.route inside (after.head? = some blockClosing) :: ss)
      ((inside ++ after).foldl read { r with block := .route {} }) := by
  let d : Route := describe {} inside
  let r' : Reading := { r with urls := r.urls ++ urlsOf inside }
  rw [List.foldl_append, foldl_read_inside r {} hinside]
  by_cases hc : after.head? = some blockClosing
  · let closed : Reading :=
      { r' with action := { r.action with routes := r.action.routes ++ [d] } }
    have h : Says closed ss (after.foldl read { r' with block := .route d }) := by
      refine (ih closed).of_head (fun hn => by simp [hn] at hc) fun l hl => ?_
      obtain rfl := Option.some.inj (hc.symm.trans hl)
      rfl
    refine ⟨?_, h.acl, ?_⟩
    · rw [h.routes]
      simp [closed, d, Segment.routes, hc]
    · rw [h.urls]
      simp [closed, r', Segment.urls]
  · have h : Says r' ss (after.foldl read { r' with block := .route d }) := by
      refine (ih r').of_head (fun _ => rfl) fun l hl => ?_
      exact read_opening r' d (hend l hl) (by rintro rfl; exact hc hl)
    refine ⟨?_, h.acl, ?_⟩
    · rw [h.routes]
      simp [r', Segment.routes, hc]
    · rw [h.urls]
      simp [r', Segment.urls]

theorem says_segments (lines : List Text) (r : Reading) :
    Says r (segments lines) (lines.foldl read { r with block := .none }) := by
  fun_induction segments lines generalizing r with
  | case1 => exact ⟨by simp, by simp, by simp⟩
  | case2 line rest ha ih =>
    have hrest := List.takeWhile_append_dropWhile (p := (· ≠ blockClosing)) (l := rest)
    have hrules : ∀ rule ∈ rest.takeWhile (· ≠ blockClosing), rule ≠ blockClosing :=
      fun rule hr => by simpa using List.mem_takeWhile_imp hr
    have hend : ∀ l, (rest.dropWhile (· ≠ blockClosing)).head? = some l → l = blockClosing := by
      intro l hl
      have h := List.head?_dropWhile_not (· ≠ blockClosing) rest
      rw [hl] at h
      simpa using h
    have h := says_acl (r := r) hrules hend ih
    rwa [hrest, ← read_openAcl r ha] at h
  | case3 line rest ha hr ih =>
    have hrest := List.takeWhile_append_dropWhile (p := (!endsRoute ·)) (l := rest)
    have hinside : ∀ l ∈ rest.takeWhile (!endsRoute ·), endsRoute l = false :=
      fun l hl => by simpa using List.mem_takeWhile_imp hl
    have hend : ∀ l, (rest.dropWhile (!endsRoute ·)).head? = some l → endsRoute l = true := by
      intro l hl
      have h := List.head?_dropWhile_not (!endsRoute ·) rest
      rw [hl] at h
      simpa using h
    have h := says_route (r := r) hinside hend ih
    rwa [hrest, ← read_openRoute r hr] at h
  | case4 line rest ha hr ih =>
    rw [List.foldl_cons, read_outside r hr ha]
    exact ih r

end Reading

/-- An action has the routes of its closed route segments and the rules of all its access segments,
and the URLs of all route segments are registered, whatever lines are malformed. -/
theorem readAction_eq_segments (lines : List Text) :
    (readAction lines).action =
        { routes := (segments lines).flatMap (·.routes)
          acl := (segments lines).flatMap (·.rules) } ∧
      (readAction lines).urls = (segments lines).flatMap (·.urls) := by
  have h := Reading.says_segments lines {}
  have hroutes : (readAction lines).action.routes = (segments lines).flatMap (·.routes) := h.routes
  have hacl : (readAction lines).action.acl = (segments lines).flatMap (·.rules) := h.acl
  exact ⟨by rw [← hroutes, ← hacl], h.urls⟩

/-- A route that another one breaks off, an access segment in a route, and one without an end. -/
example :
    segments ["@route(".toList, "url=/a".toList, "@route(".toList, "url=/b".toList, ")".toList,
        ")".toList, "@route(".toList, "@acl(".toList, "url=/c".toList] =
      [.route ["url=/a".toList] false, .route ["url=/b".toList] true, .route [] false,
        .acl ["url=/c".toList]] := by
  decide +kernel

end AnnotatedRoutes.Directive
