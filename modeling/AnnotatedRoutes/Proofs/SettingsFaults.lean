import AnnotatedRoutes.Proofs.CatalogEntries
import AnnotatedRoutes.Proofs.TextBytes
import AnnotatedRoutes.Settings.File
import Mathlib.Data.List.Permutation

namespace AnnotatedRoutes

/-- The classes of the errors by which faults of settings are told. -/
inductive ErrorClass where
  /-- The message says what is wrong with the configuration. -/
  | configuration
  /-- A key was looked up that is not there. -/
  | lookup
  /-- The items were wanted of a value that has none. -/
  | type
  /-- A number was refused. -/
  | value
  deriving DecidableEq

def SettingsFault.errorClass : SettingsFault → ErrorClass
  | .fileMissing _ | .fileUnreadable _ _ | .notMapping _ | .sectionMissing _ | .catalogNotMapping
  | .templateNotText _ => .configuration
  | .templateMissing _ => .lookup
  | .ignoredNotListed _ => .type
  | .numberTooLong => .value

/-- The templates that may be left out, as they are then. -/
def RouterTemplates.defaults : Section :=
  [("controller_title".toList, "// \x7brouting_name\x7d".toList),
   ("action_title".toList, "// \x7baction_id\x7d".toList),
   ("bind".toList, "->bind('\x7bname\x7d')".toList), ("chain_indent".toList, "    ".toList)].map
    fun entry => (.text entry.1, .scalar (.text entry.2))

/-- Every template is a text that stands under its key, or a default whose key is left out. -/
def RouterTemplates.TakenFrom (ts : RouterTemplates) (render : Section) : Prop :=
  ∀ entry ∈ ts.toSection, render.lookup entry.1 = some entry.2 ∨
    render.lookup entry.1 = none ∧ entry ∈ defaults

namespace Section

/-- The entries of a section, if it is there and a mapping. -/
def subsection? (document : Section) (name : Text) : Option Section :=
  (document.get? name).bind Value.entries?

/-- The value under a key, if there is one, can be written. -/
def Writable (s : Section) (key : Text) : Prop :=
  ∀ v, s.get? key = some v → v.isTooLong = false

/-- The ignored directories, if there are any, have items: they are no single value but a text. -/
def ListsIgnored (scan : Section) : Prop :=
  ∀ x, scan.get? "ignore_dirs".toList = some (.scalar x) → ∃ t, x = .text t

/-- The templates that have to be there. -/
def requiredTemplates : List Text :=
  ["header".toList, "controller_rule".toList, "action_rule".toList, "controller".toList,
   "route".toList, "method".toList, "acl_resource".toList, "acl_allow_open".toList,
   "acl_rule".toList, "acl_allow_close".toList]

/-- Either a value is no text, and the key of the first such value can be written; or all required
templates are there. -/
def TellsTemplates (render : Section) : Prop :=
  match render.firstNotText? with
  | some key => key.isTooLong = false
  | none => ∀ key ∈ requiredTemplates, ∃ v, render.get? key = some v

/-- Nothing is wrong but what is told as an error of the configuration. The sections are read in
order, none after one that is missing. -/
def Tellable (document : Section) : Prop :=
  ∀ php, document.subsection? "php".toList = some php →
    (php.Writable "namespace_separator".toList ∧ php.Writable "constructor".toList) ∧
      ∀ scan, document.subsection? "scan".toList = some scan →
        (scan.ListsIgnored ∧ scan.Writable "controller_suffix".toList ∧
          scan.Writable "source_ext".toList) ∧
        ∀ render, document.subsection? "render".toList = some render → render.TellsTemplates

end Section

namespace Settings

/-- The settings that the content of a file makes. -/
def ofValue (path : Text) : Value → Except SettingsFault Settings
  | .mapping document => ofDocument document
  | _ => .error (.notMapping path)

/-- What is at fault in the content of a file, by the name that a message gives it: the path, one of
the three sections or the key of a template. -/
inductive AtFault (path : Text) (v : Value) : Text → Prop
  | ofPath : v.entries? = none → AtFault path v path
  | ofSection {document : Section} {name : Text} : v.entries? = some document →
      name ∈ ["php".toList, "scan".toList, "render".toList] →
      document.subsection? name = none → AtFault path v name
  | ofTemplate {document render : Section} {key : Scalar} {value : Value} :
      v.entries? = some document → document.subsection? "render".toList = some render →
      (key, value) ∈ render → value.text? = none → AtFault path v ("render.".toList ++ key.plain)

/-- The outcome is settings with texts for templates, or an error of the configuration that names
what is at fault. -/
inductive Told (path : Text) (v : Value) : Except SettingsFault Settings → Prop
  | loaded {settings : Settings} {document render : Section} : v.entries? = some document →
      document.subsection? "render".toList = some render →
      settings.templates.TakenFrom render → Told path v (.ok settings)
  | refused {fault : SettingsFault} {name : Text} : fault.errorClass = .configuration →
      AtFault path v name → Text.doubleQuoted name <:+: fault.message →
      Told path v (.error fault)

end Settings

/-- A step that goes on if a condition holds, and else ends with an error of another class. -/
def Decides {α : Type} (x : Except SettingsFault α) (c : Prop) : Prop :=
  (c ∧ ∃ a, x = .ok a) ∨ (¬ c ∧ ∃ fault, x = .error fault ∧ fault.errorClass ≠ .configuration)

namespace Decides

variable {α β : Type} {x : Except SettingsFault α} {k : α → Except SettingsFault β} {c d : Prop}

theorem pure (a : α) : Decides (.ok a) True := .inl ⟨trivial, a, rfl⟩

theorem bind (hx : Decides x c) (hk : ∀ a, Decides (k a) d) : Decides (x >>= k) (c ∧ d) := by
  obtain ⟨hc, a, rfl⟩ | ⟨hc, fault, rfl, hfault⟩ := hx
  · obtain ⟨hd, b, hb⟩ | ⟨hd, fault, hb, hfault⟩ := hk a
    · exact .inl ⟨⟨hc, hd⟩, b, hb⟩
    · exact .inr ⟨fun h => hd h.2, fault, hb, hfault⟩
  · exact .inr ⟨fun h => hc h.1, fault, rfl, hfault⟩

theorem congr (hx : Decides x c) (h : c ↔ d) : Decides x d := propext h ▸ hx

end Decides

theorem Scalar.isTooLong_zero : (Scalar.int 0).isTooLong = false := by
  unfold isTooLong
  generalize digitLimit = digits
  exact decide_eq_false (Nat.not_le.mpr (Nat.pow_pos (by decide)))

theorem Value.isTooLong_of_isVoid {v : Value} (h : v.isVoid = true) : v.isTooLong = false := by
  cases v with
  | scalar x =>
    cases x with
    | int i =>
      obtain rfl : i = 0 := by simpa [isVoid, Scalar.isVoid] using h
      exact Scalar.isTooLong_zero
    | _ => rfl
  | list items =>
    obtain rfl : items = [] := List.isEmpty_iff.mp h
    rfl
  | mapping entries =>
    obtain rfl : entries = [] := List.isEmpty_iff.mp h
    rfl

namespace Section

variable {document s : Section}

theorem decides_textOr (s : Section) (key default : Text) :
    Decides (s.textOr key default) (s.Writable key) := by
  unfold textOr textOr? Writable
  cases s.get? key with
  | none => exact .inl ⟨nofun, default, rfl⟩
  | some v =>
    have hwritable : (∀ v', some v = some v' → v'.isTooLong = false) ↔ v.isTooLong = false := by
      simp
    refine Decides.congr ?_ hwritable.symm
    cases hvoid : v.isVoid with
    | true => exact .inl ⟨v.isTooLong_of_isVoid hvoid, default, by simp only [hvoid, if_true]⟩
    | false =>
      cases hlong : v.isTooLong with
      | true =>
        exact .inr ⟨nofun, .numberTooLong,
          by simp only [hvoid, hlong, if_true, Bool.false_eq_true, if_false], nofun⟩
      | false =>
        exact .inl ⟨rfl, v.plain, by simp only [hvoid, hlong, Bool.false_eq_true, if_false]⟩

theorem decides_ignoredDirectories (s : Section) :
    Decides s.ignoredDirectories s.ListsIgnored := by
  unfold ignoredDirectories ListsIgnored
  cases s.get? "ignore_dirs".toList with
  | none => exact .inl ⟨nofun, _, rfl⟩
  | some v =>
    cases v with
    | list items => exact .inl ⟨nofun, _, rfl⟩
    | mapping entries => exact .inl ⟨nofun, _, rfl⟩
    | scalar x =>
      cases x with
      | text t => exact .inl ⟨fun x hx => ⟨t, by cases hx; rfl⟩, _, rfl⟩
      | _ =>
        refine .inr ⟨fun h => ?_, _, rfl, nofun⟩
        obtain ⟨t, ht⟩ := h _ rfl
        cases ht

theorem requiredSection_of_subsection? {name : Text} (h : document.subsection? name = some s) :
    document.requiredSection name = .ok s := by
  unfold requiredSection
  rw [show (document.get? name).bind Value.entries? = some s from h]

theorem requiredSection_of_none {name : Text} (h : document.subsection? name = none) :
    document.requiredSection name = .error (.sectionMissing name) := by
  unfold requiredSection
  rw [show (document.get? name).bind Value.entries? = none from h]

theorem decides_sourceSyntax (h : document.subsection? "php".toList = some s) :
    Decides document.sourceSyntax
      (s.Writable "namespace_separator".toList ∧ s.Writable "constructor".toList) := by
  have hsection : document.phpSection = .ok s := requiredSection_of_subsection? h
  unfold sourceSyntax namespaceSeparator
  rw [hsection]
  refine (decides_textOr s _ _).bind fun separator => ?_
  exact ((decides_textOr s _ _).bind fun _ => .pure _).congr (iff_of_eq (and_true _))

theorem decides_scanRules (h : document.subsection? "scan".toList = some s) :
    Decides document.scanRules
      (s.ListsIgnored ∧ s.Writable "controller_suffix".toList ∧
        s.Writable "source_ext".toList) := by
  have hsection : document.scanSection = .ok s := requiredSection_of_subsection? h
  unfold scanRules
  rw [hsection]
  refine (decides_ignoredDirectories s).bind fun ignored => ?_
  refine (decides_textOr s _ _).bind fun suffix => ?_
  exact ((decides_textOr s _ _).bind fun _ => .pure _).congr (iff_of_eq (and_true _))

theorem firstNotText?_eq_some {key : Scalar} (h : s.firstNotText? = some key) :
    ∃ v, (key, v) ∈ s ∧ v.text? = none := by
  obtain ⟨entry, hfind, rfl⟩ := Option.map_eq_some_iff.mp h
  exact ⟨entry.2, List.mem_of_find?_eq_some hfind,
    Option.isNone_iff_eq_none.mp (by simpa using List.find?_some hfind)⟩

theorem text_of_firstNotText?_eq_none (h : s.firstNotText? = none) {key : Text} {v : Value}
    (hv : s.get? key = some v) : ∃ t, v = .scalar (.text t) := by
  obtain ⟨before, after, rfl, -⟩ := List.lookup_eq_some_iff.mp hv
  have hnone := List.find?_eq_none.mp (Option.map_eq_none_iff.mp h) (.text key, v) (by simp)
  cases v with
  | scalar x =>
    cases x with
    | text t => exact ⟨t, rfl⟩
    | _ => exact absurd rfl hnone
  | _ => exact absurd rfl hnone

theorem renderSection_of_none (hs : document.subsection? "render".toList = some s)
    (h : s.firstNotText? = none) : document.renderSection = .ok s := by
  unfold renderSection
  rw [requiredSection_of_subsection? hs]
  simp only [Bind.bind, Except.bind, h]
  rfl

theorem decides_requiredTemplate (h : s.firstNotText? = none) (key : Text) :
    Decides (s.requiredTemplate key) (∃ v, s.get? key = some v) := by
  unfold requiredTemplate template?
  cases hv : s.get? key with
  | none => exact .inr ⟨nofun, _, rfl, nofun⟩
  | some v =>
    obtain ⟨t, rfl⟩ := text_of_firstNotText?_eq_none h hv
    exact .inl ⟨⟨_, rfl⟩, t, rfl⟩

theorem decides_routerTemplates (hs : document.subsection? "render".toList = some s)
    (h : s.firstNotText? = none) :
    Decides document.routerTemplates (∀ key ∈ requiredTemplates, ∃ v, s.get? key = some v) := by
  unfold routerTemplates
  rw [renderSection_of_none hs h]
  have hrequired := decides_requiredTemplate h
  refine Decides.congr
    ((hrequired "header".toList).bind fun header =>
    (hrequired "controller_rule".toList).bind fun controllerRule =>
    (hrequired "action_rule".toList).bind fun actionRule =>
    (hrequired "controller".toList).bind fun controller =>
    (hrequired "route".toList).bind fun route =>
    (hrequired "method".toList).bind fun method =>
    (hrequired "acl_resource".toList).bind fun aclResource =>
    (hrequired "acl_allow_open".toList).bind fun aclAllowOpen =>
    (hrequired "acl_rule".toList).bind fun aclRule =>
    (hrequired "acl_allow_close".toList).bind fun aclAllowClose => .pure _) ?_
  simp only [requiredTemplates, List.forall_mem_cons]
  simp

theorem get?_of_requiredTemplate {key t : Text} (h : s.requiredTemplate key = .ok t) :
    s.get? key = some (.scalar (.text t)) := by
  unfold requiredTemplate template? at h
  cases hv : s.get? key with
  | none =>
    rw [hv] at h
    cases h
  | some v =>
    rw [hv] at h
    cases v with
    | scalar x =>
      cases x with
      | text t' =>
        obtain rfl : t' = t := Except.ok.inj h
        rfl
      | _ => cases h
    | _ => cases h

/-- The template under a key that may be left out is there, or it is the default. -/
theorem lookup_of_template {key default : Text} (h : s.firstNotText? = none)
    (hdefault : (.text key, .scalar (.text default)) ∈ RouterTemplates.defaults) :
    s.lookup (.text key) = some (.scalar (.text ((s.template? key).getD default))) ∨
      s.lookup (.text key) = none ∧
        (.text key, .scalar (.text ((s.template? key).getD default))) ∈
          RouterTemplates.defaults := by
  unfold template?
  cases hv : s.get? key with
  | none => exact .inr ⟨hv, hdefault⟩
  | some v =>
    obtain ⟨t, rfl⟩ := text_of_firstNotText?_eq_none h hv
    exact .inl hv

theorem takenFrom_of_routerTemplates (hs : document.subsection? "render".toList = some s)
    (h : s.firstNotText? = none) {ts : RouterTemplates} (hts : document.routerTemplates = .ok ts) :
    ts.TakenFrom s := by
  unfold routerTemplates at hts
  rw [renderSection_of_none hs h] at hts
  obtain ⟨_, ⟨⟩, hts⟩ := bind_eq_ok_iff.mp hts
  obtain ⟨header, hheader, hts⟩ := bind_eq_ok_iff.mp hts
  obtain ⟨controllerRule, hcontrollerRule, hts⟩ := bind_eq_ok_iff.mp hts
  obtain ⟨actionRule, hactionRule, hts⟩ := bind_eq_ok_iff.mp hts
  obtain ⟨controller, hcontroller, hts⟩ := bind_eq_ok_iff.mp hts
  obtain ⟨route, hroute, hts⟩ := bind_eq_ok_iff.mp hts
  obtain ⟨method, hmethod, hts⟩ := bind_eq_ok_iff.mp hts
  obtain ⟨aclResource, haclResource, hts⟩ := bind_eq_ok_iff.mp hts
  obtain ⟨aclAllowOpen, haclAllowOpen, hts⟩ := bind_eq_ok_iff.mp hts
  obtain ⟨aclRule, haclRule, hts⟩ := bind_eq_ok_iff.mp hts
  obtain ⟨aclAllowClose, haclAllowClose, hts⟩ := bind_eq_ok_iff.mp hts
  obtain rfl := Except.ok.inj hts
  unfold RouterTemplates.TakenFrom RouterTemplates.toSection
  simp only [List.map_cons, List.map_nil, List.forall_mem_cons]
  have hrequired {key t : Text} (ht : s.requiredTemplate key = .ok t) :
      s.lookup (.text key) = some (.scalar (.text t)) ∨ s.lookup (.text key) = none ∧
        (.text key, .scalar (.text t)) ∈ RouterTemplates.defaults :=
    .inl (get?_of_requiredTemplate ht)
  have hleft {key default : Text}
      (hdefault : (.text key, .scalar (.text default)) ∈ RouterTemplates.defaults) :=
    lookup_of_template h hdefault
  exact ⟨hrequired hheader, hrequired hcontrollerRule, hrequired hactionRule,
    hleft (by simp [RouterTemplates.defaults]), hrequired hcontroller,
    hleft (by simp [RouterTemplates.defaults]), hrequired hroute, hrequired hmethod,
    hleft (by simp [RouterTemplates.defaults]), hleft (by simp [RouterTemplates.defaults]),
    hrequired haclResource, hrequired haclAllowOpen, hrequired haclRule,
    hrequired haclAllowClose, nofun⟩

end Section

namespace Settings

theorem Told.errorClass {path : Text} {v : Value} {fault : SettingsFault}
    (h : Told path v (.error fault)) : fault.errorClass = .configuration := by
  cases h with
  | refused hclass => exact hclass

theorem told_notMapping {path : Text} {v : Value} (hv : v.entries? = none) :
    Told path v (.error (.notMapping path)) :=
  .refused rfl (.ofPath hv) (List.infix_append _ _ _)

theorem told_sectionMissing (path : Text) {v : Value} {document : Section} {name : Text}
    (hv : v.entries? = some document)
    (hname : name ∈ ["php".toList, "scan".toList, "render".toList])
    (h : document.subsection? name = none) : Told path v (.error (.sectionMissing name)) :=
  .refused rfl (.ofSection hv hname h) (List.infix_append _ _ _)

theorem told_templateNotText (path : Text) {v : Value} {document render : Section} {key : Scalar}
    (hv : v.entries? = some document) (hrender : document.subsection? "render".toList = some render)
    (h : render.firstNotText? = some key) : Told path v (.error (.templateNotText key)) := by
  obtain ⟨value, hmem, htext⟩ := Section.firstNotText?_eq_some h
  exact .refused rfl (.ofTemplate hv hrender hmem htext) (List.infix_append _ _ _)

section Reading

variable {path : Text} {v : Value} {document : Section}

/-- A step that decides, and what follows it. -/
theorem told_bind_iff {α : Type} {x : Except SettingsFault α}
    {k : α → Except SettingsFault Settings} {c d : Prop} (hx : Decides x c)
    (hk : ∀ a, x = .ok a → (Told path v (k a) ↔ d)) : Told path v (x >>= k) ↔ c ∧ d := by
  obtain ⟨hc, a, rfl⟩ | ⟨hc, fault, rfl, hfault⟩ := hx
  · exact (hk a rfl).trans (and_iff_right hc).symm
  · exact iff_of_false (fun h => hfault h.errorClass) fun h => hc h.1

/-- A step that reads a section and decides if the section is there, and what follows it. -/
theorem told_section_iff (hv : v.entries? = some document) {name : Text}
    (hname : name ∈ ["php".toList, "scan".toList, "render".toList]) {α : Type}
    {x : Except SettingsFault α} {k : α → Except SettingsFault Settings} {c : Section → Prop}
    {d : Prop} (hmissing : document.subsection? name = none → x = .error (.sectionMissing name))
    (hx : ∀ s, document.subsection? name = some s → Decides x (c s))
    (hk : ∀ a, Told path v (k a) ↔ d) :
    Told path v (x >>= k) ↔ ∀ s, document.subsection? name = some s → c s ∧ d := by
  cases hs : document.subsection? name with
  | none =>
    rw [hmissing hs]
    exact iff_of_true (told_sectionMissing path hv hname hs) nofun
  | some s =>
    rw [told_bind_iff (hx s hs) fun a _ => hk a]
    exact ⟨fun h s' hs' => Option.some.inj hs' ▸ h, fun h => h s rfl⟩

theorem told_templates_iff (hv : v.entries? = some document) (source : SourceSyntax)
    (scan : ScanRules) :
    Told path v (document.routerTemplates >>= fun templates =>
        .ok { document, source, scan, templates }) ↔
      ∀ render, document.subsection? "render".toList = some render → render.TellsTemplates := by
  cases hs : document.subsection? "render".toList with
  | none =>
    have hmissing : document.routerTemplates = .error (.sectionMissing "render".toList) := by
      unfold Section.routerTemplates Section.renderSection
      rw [Section.requiredSection_of_none hs]
      rfl
    rw [hmissing]
    exact iff_of_true (told_sectionMissing path hv (by decide) hs) nofun
  | some render =>
    have hrender : (∀ render', some render = some render' → render'.TellsTemplates) ↔
        render.TellsTemplates := by simp
    rw [hrender]
    unfold Section.TellsTemplates
    cases h : render.firstNotText? with
    | none =>
      refine (told_bind_iff (Section.decides_routerTemplates hs h) fun templates ht => ?_).trans
        (iff_of_eq (and_true _))
      exact iff_true_intro (.loaded hv hs (Section.takenFrom_of_routerTemplates hs h ht))
    | some key =>
      -- the check of the texts goes before the lookups, so no missing template is found out
      have hfault : document.routerTemplates =
          .error (if key.isTooLong then .numberTooLong else .templateNotText key) := by
        unfold Section.routerTemplates Section.renderSection
        rw [Section.requiredSection_of_subsection? hs]
        simp only [Bind.bind, Except.bind, h]
      rw [hfault]
      cases hlong : key.isTooLong with
      | true => exact iff_of_false (fun htold => absurd htold.errorClass nofun) (by simp [hlong])
      | false => exact iff_of_true (told_templateNotText path hv hs h) hlong

theorem told_ofDocument_iff (hv : v.entries? = some document) :
    Told path v (ofDocument document) ↔ document.Tellable := by
  unfold ofDocument
  refine told_section_iff hv (by decide) (fun hs => ?_) (fun s => Section.decides_sourceSyntax)
    fun source => ?_
  · unfold Section.sourceSyntax Section.namespaceSeparator Section.phpSection
    rw [Section.requiredSection_of_none hs]
    rfl
  refine told_section_iff hv (by decide) (fun hs => ?_) (fun s => Section.decides_scanRules)
    fun scan => ?_
  · unfold Section.scanRules Section.scanSection
    rw [Section.requiredSection_of_none hs]
    rfl
  exact told_templates_iff hv source scan

end Reading

theorem told_ofValue_iff (path : Text) (v : Value) :
    Told path v (ofValue path v) ↔
      ∀ document, v.entries? = some document → document.Tellable := by
  cases hv : v.entries? with
  | none =>
    have hvalue : ofValue path v = .error (.notMapping path) := by
      cases v <;> trivial
    exact iff_of_true (hvalue ▸ told_notMapping hv) nofun
  | some document =>
    obtain rfl : v = .mapping document := by
      cases v <;> cases hv
      rfl
    rw [ofValue, told_ofDocument_iff hv]
    exact ⟨fun h document' h' => Option.some.inj h' ▸ h, fun h => h document rfl⟩

theorem load_of_readValue {t : FileTree} {around : Surroundings} {asked : Text} {p : Path}
    {v : Value} (hp : locate t around asked = .ok (some p))
    (hthere : t.isThere around.working p = .ok true)
    (hv : t.readValue around.working p = .ok v) :
    load t around asked = (ofValue p.toText v).mapError .settings := by
  simp only [load, hp, Except.mapError, Bind.bind, Except.bind, documentAt, loadDocument, hthere,
    hv, Bool.not_true, Bool.false_eq_true, if_false]
  cases v <;> rfl

/-- Whatever the content of a settings file is, its faults are told as errors of the configuration,
exactly if no template is missing where all are texts, the ignored directories have items, and no
number is too long. -/
theorem told_as_configuration_iff (path : Text) (v : Value) :
    (Told path v (ofValue path v) ↔ ∀ document, v.entries? = some document → document.Tellable) ∧
      ∀ t around asked p, locate t around asked = .ok (some p) →
        t.isThere around.working p = .ok true → t.readValue around.working p = .ok v →
        load t around asked = (ofValue p.toText v).mapError .settings :=
  ⟨told_ofValue_iff path v, fun _ _ _ _ => load_of_readValue⟩

/-- A settings file without any section. -/
def withoutSections : FileTree := FileTree.put {} [['c']] (.file (Text.encode "\x7b\x7d".toList))

theorem told_as_configuration_without_sections :
    Told "/c".toList (.mapping []) (.error (.sectionMissing "php".toList)) ∧
      load withoutSections ⟨[], [], []⟩ "/c".toList =
        .error (.settings (.sectionMissing "php".toList)) := by
  obtain ⟨htold, hload⟩ := told_as_configuration_iff "/c".toList (.mapping [])
  have hp : locate withoutSections ⟨[], [], []⟩ "/c".toList = .ok (some ⟨.absolute, [['c']]⟩) := by
    cbv
  have hthere : withoutSections.isThere [] ⟨.absolute, [['c']]⟩ = .ok true := by cbv
  have hread : withoutSections.read [] ⟨.absolute, [['c']]⟩ =
      .ok (Text.encode "\x7b\x7d".toList) := by cbv
  have hdocument : Yaml.read "\x7b\x7d".toList = .ok (.mapping []) := by cbv
  have hv : withoutSections.readValue [] ⟨.absolute, [['c']]⟩ = .ok (.mapping []) := by
    simp only [FileTree.readValue, hread, Except.mapError, Bind.bind, Except.bind,
      Text.decode?_encode, hdocument]
  refine ⟨htold.mpr ?_, hload _ _ _ _ hp hthere hv⟩
  rintro document ⟨⟩ php hphp
  cases hphp

/-- With three empty sections the first template is missed by a lookup. -/
theorem not_told_without_templates :
    let v : Value := .mapping [(.text "scan".toList, .mapping []),
      (.text "php".toList, .mapping []), (.text "render".toList, .mapping [])]
    ∃ fault, ofValue "/c".toList v = .error fault ∧ fault.errorClass = .lookup ∧
      fault.message = "'header'".toList ∧ ¬ Told "/c".toList v (ofValue "/c".toList v) :=
  ⟨.templateMissing "header".toList, rfl, rfl, rfl, fun h => nomatch h.errorClass⟩

end Settings

end AnnotatedRoutes
