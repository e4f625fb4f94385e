import AnnotatedRoutes.Generation
import AnnotatedRoutes.Proofs.CanonicalPaths
import AnnotatedRoutes.Proofs.JsonReading
import AnnotatedRoutes.Proofs.RouterLayout
import AnnotatedRoutes.Proofs.RunEffects
import AnnotatedRoutes.Proofs.TextBytes
import AnnotatedRoutes.Proofs.WrittenFiles
import Mathlib.Data.List.Permutation

namespace AnnotatedRoutes

theorem Text.splitAt_join {sep : Char} {pieces : List Text} (h : ∀ t ∈ pieces, sep ∉ t)
    (hne : pieces ≠ []) : Text.splitAt sep (Text.join [sep] pieces) = pieces := by
  induction pieces with
  | nil => exact absurd rfl hne
  | cons t pieces ih =>
    obtain ⟨ht, hpieces⟩ := List.forall_mem_cons.mp h
    cases pieces with
    | nil => simpa [splitAt, join] using splitAt_append_of_not_mem ht []
    | cons u pieces =>
      have hjoin : join [sep] (t :: u :: pieces) = t ++ sep :: join [sep] (u :: pieces) := by
        rw [join, List.append_assoc, List.singleton_append]
      rw [hjoin, splitAt_append ht, ih hpieces (List.cons_ne_nil u pieces)]

namespace Record

/-- A record as a JSON value: an object with a key for each field. -/
def value (r : Record) : Json.Value :=
  .object
    [("controller".toList, .string r.controller),
     ("class".toList, .string r.className),
     ("action".toList, .string r.action),
     ("method".toList, .string r.route.method),
     ("url".toList, .string r.route.url),
     ("name".toList, .string r.route.name),
     ("asserts".toList, .array (r.route.asserts.map .string)),
     ("values".toList, .array (r.route.values.map .string)),
     ("acl".toList, .array (r.acl.map .string))]

theorem readAs_strings (depth : Nat) (ts : List Text) :
    Json.ReadAs (Json.readValue (depth + 2)) (Json.strings ts) (.array (ts.map .string)) :=
  .array (List.forall₂_map_left_iff.mpr (List.forall₂_map_right_iff.mpr
    (List.forall₂_same.mpr fun t _ => .string depth t)))

theorem readAs_toJson (r : Record) (depth : Nat) :
    Json.ReadAs (Json.readValue (depth + 3)) r.toJson r.value := by
  have htext (t : Text) : Json.ReadAs (Json.readValue (depth + 2)) (Json.string t) (.string t) :=
    .string (depth + 1) t
  have hlist := readAs_strings depth
  refine .object ?_
  exact .cons ⟨rfl, htext _⟩ (.cons ⟨rfl, htext _⟩ (.cons ⟨rfl, htext _⟩ (.cons ⟨rfl, htext _⟩
    (.cons ⟨rfl, htext _⟩ (.cons ⟨rfl, htext _⟩ (.cons ⟨rfl, hlist _⟩ (.cons ⟨rfl, hlist _⟩
    (.cons ⟨rfl, hlist _⟩ .nil))))))))

theorem read?_toJson (r : Record) : Json.read? r.toJson = some r.value := by
  obtain ⟨depth, hdepth⟩ : ∃ depth, r.toJson.length = depth + 2 := by
    obtain ⟨depth, h⟩ : ∃ depth, r.toJson.tail.length = depth + 1 :=
      Nat.exists_eq_succ_of_ne_zero (by simp [toJson, Json.object])
    exact ⟨depth, by simpa using h⟩
  exact Json.read?_of_readAs (hdepth ▸ r.readAs_toJson depth)

theorem newline_not_mem_toJson (r : Record) : '\n' ∉ r.toJson := by
  have hlist (ts : List Text) : '\n' ∉ Json.strings ts :=
    Json.newline_not_mem_array (by simp [Json.newline_not_mem_string])
  refine Json.newline_not_mem_object ?_
  simp only [List.forall_mem_cons, Json.newline_not_mem_string, hlist, not_false_eq_true, true_and]
  exact fun _ h => absurd h List.not_mem_nil

/-- The text holds one record a line. Without records it is empty; else it ends with a line feed,
and the pieces between the line feeds before that one are read as the records, one for one. -/
structure WrittenAs (records : List Record) (text : Text) : Prop where
  eq_nil : records = [] → text = []
  pieces : records ≠ [] → ∃ body, text = body ++ ['\n'] ∧
    (Text.splitAt '\n' body).map Json.read? = records.map fun r => some r.value

theorem toJsonLines_eq_text (records : List Record) :
    toJsonLines records = ShippedRouter.text (records.map toJson) := by
  rw [toJsonLines, ShippedRouter.text, List.flatMap_map]

theorem writtenAs_toJsonLines (records : List Record) :
    WrittenAs records (toJsonLines records) where
  eq_nil h := by
    rw [h]
    rfl
  pieces hne := by
    have hlines : records.map toJson ≠ [] := mt List.map_eq_nil_iff.mp hne
    have hunbroken : ∀ t ∈ records.map toJson, '\n' ∉ t := by
      rw [List.forall_mem_map]
      exact fun r _ => r.newline_not_mem_toJson
    refine ⟨Text.join ['\n'] (records.map toJson), ?_, ?_⟩
    · rw [toJsonLines_eq_text, ShippedRouter.join_append_newline hlines]
    · rw [Text.splitAt_join hunbroken hlines, List.map_map]
      exact List.map_congr_left fun r _ => r.read?_toJson

end Record

/-- The dump of a model holds its records. The number that is returned is that of the records; a
dump that the tree refuses ends the run. -/
theorem writeRecords_dumps (working : Location) {m : RoutingModel} {records : List Record}
    (h : m.records = .ok records) (p : Path) :
    ∃ text, Record.WrittenAs records text ∧ ∀ s : Session,
      match s.tree.writeDeep working p text with
      | (t, none) =>
        (writeRecords working m p).run.run s = (.ok records.length, { s with tree := t }) ∧
          t.readText working p = .ok text
      | (t, some e) =>
        (writeRecords working m p).run.run s =
          (.error (.path (.file e)), { s with tree := t }) := by
  refine ⟨Record.toJsonLines records, Record.writtenAs_toJsonLines records, fun s => ?_⟩
  have hrun : (writeRecords working m p).run.run s =
      (Run.proceed (s.tree.writeDeep working p (Record.toJsonLines records)) >>=
        fun _ => pure records.length).run.run s := by
    rw [writeRecords, h]
    rfl
  have hproceed := Run.run_proceed (s.tree.writeDeep working p (Record.toJsonLines records)) s
  rw [hrun]
  split
  next t hwrite =>
    rw [hwrite] at hproceed
    refine ⟨?_, ?_⟩
    · rw [hwrite, Run.run_bind_ok hproceed]
      rfl
    · rw [FileTree.readText, FileTree.read_of_writeDeep hwrite, Except.map, Text.decodeLossy_encode]
  next t e hwrite =>
    rw [hwrite] at hproceed
    rw [hwrite, Run.run_bind_error hproceed]

/-- A model with quotes, a backslash, a control character and three kinds of line ends in its
texts. -/
def unquotedModel : RoutingModel where
  controllers := (∅ : Keyed Text Controller).put ['"'] {
    className := "A\\B".toList
    actions := (∅ : Keyed Text Action).put ['\n'] {
      routes := [{ url := ['/', '\x01', '\u2028'], asserts := ["\r\n".toList] }]
      acl := ["'\"'".toList] } }
  urlIndex := (∅ : Keyed Text Text).put ['/'] ['"']

def unquotedRecord : Record :=
  ⟨['"'], "A\\B".toList, ['\n'],
    { url := ['/', '\x01', '\u2028'], asserts := ["\r\n".toList] }, ["'\"'".toList]⟩

theorem records_unquotedModel : unquotedModel.records = .ok [unquotedRecord] := by
  have hsorted : unquotedModel.sortedIndex = [(['/'], ['"'])] := List.mergeSort_singleton _
  rw [RoutingModel.records, RoutingModel.reducedIndex, hsorted]
  rfl

theorem writeRecords_dumps_unquotedModel :
    unquotedModel.records = .ok [unquotedRecord] ∧
      ∃ text t, Record.WrittenAs [unquotedRecord] text ∧
        (writeRecords [] unquotedModel ⟨.absolute, [['o']]⟩).run.run { tree := {} } =
          (.ok 1, { tree := t }) ∧
        t.readText [] ⟨.absolute, [['o']]⟩ = .ok text := by
  obtain ⟨text, htext, hrun⟩ :=
    writeRecords_dumps [] records_unquotedModel ⟨.absolute, [['o']]⟩
  have hwritten : FileTree.writeDeep {} [] ⟨.absolute, [['o']]⟩ text =
      (FileTree.put {} [['o']] (.file (Text.encode text)), none) := by
    cbv
  have h := hrun { tree := {} }
  rw [hwritten] at h
  exact ⟨records_unquotedModel, text, _, htext, h⟩

end AnnotatedRoutes
