import PodSizing.Proofs.Json.RoundTrip
import PodSizing.Proofs.Pod.Frame
import PodSizing.Status.Update

/-!
# The status record on a pod

Reading the text of a status record gives the record again, with every field as it was, whatever
characters its texts hold.
-/
namespace PodSizing

namespace Json

theorem namedMembers?_record (fields : List (String × Json)) :
    namedMembers? (fields.map fun f => (some f.1, f.2)) = some fields := by
  induction fields with
  | nil => rfl
  | cons f fields ih => simp [namedMembers?, ih]

theorem onlyMember?_of_mem {fields : List (String × Json)} (hnodup : (fields.map (·.1)).Nodup)
    {f : String × Json} (hf : f ∈ fields) : onlyMember? fields f.1 = some (some f.2) := by
  have hfilter : fields.filter (·.1 = f.1) = [f] := by
    induction fields with
    | nil => cases hf
    | cons g fields ih =>
      rw [List.map_cons, List.nodup_cons] at hnodup
      rcases List.mem_cons.1 hf with rfl | hf
      · have hnone : fields.filter (·.1 = f.1) = [] := by
          rw [List.filter_eq_nil_iff]
          intro e he heq
          exact hnodup.1 (List.mem_map.2 ⟨e, he, by simpa using heq⟩)
        simp [hnone]
      · have hne : g.1 ≠ f.1 := fun heq => hnodup.1 (List.mem_map.2 ⟨f, hf, heq.symm⟩)
        simpa [hne] using ih hnodup.2 hf
  simp [onlyMember?, hfilter]

theorem fields?_record {names : List String} {fields : List (String × Json)}
    (hnames : fields.map (·.1) = names) (hnodup : names.Nodup) :
    fields? names (record fields) = some (fields.map fun f => some f.2) := by
  subst hnames
  have hall (part : List (String × Json)) (hpart : ∀ f ∈ part, f ∈ fields) :
      (part.map (·.1)).mapM (onlyMember? fields) = some (part.map fun f => some f.2) := by
    induction part with
    | nil => rfl
    | cons f part ih =>
      have hf := onlyMember?_of_mem hnodup (hpart f List.mem_cons_self)
      have hrest := ih fun g hg => hpart g (List.mem_cons_of_mem _ hg)
      simp [List.mapM_cons, hf, hrest]
  simpa [fields?, record, namedMembers?_record] using hall fields fun f hf => hf

@[simp] theorem readString?_text (s : String) : readString? (text s) = some s := rfl

/-- A word reads as itself where no other one has its text. -/
theorem word?_text {α : Type} {all : List α} {toText : α → String}
    (hinj : ∀ a ∈ all, ∀ b ∈ all, toText a = toText b → a = b) {a : α} (ha : a ∈ all) :
    word? all toText (text (toText a)) = some a := by
  simp only [word?, text]
  cases hfind : all.find? fun b => toText b = toText a with
  | none => simpa using List.find?_eq_none.1 hfind a ha
  | some b =>
    have htext : toText b = toText a := by simpa using List.find?_some hfind
    rw [hinj b (List.mem_of_find?_eq_some hfind) a ha htext]

end Json

open Json (fields?_record givenOr? given? readsBack_text readsBack_record readsBack_arr)

@[simp] theorem readBoolState?_text (b : BoolState) : readBoolState? (.text b.text) = some b :=
  Json.word?_text (by decide) (by cases b <;> decide)

@[simp] theorem readContainerState?_text (c : ContainerState) :
    Json.word? ContainerState.all ContainerState.text (.text c.text) = some c :=
  Json.word?_text (by decide) (by cases c <;> decide)

@[simp] theorem readResourcesState?_text (r : ResourcesState) :
    Json.word? ResourcesState.all ResourcesState.text (.text r.text) = some r :=
  Json.word?_text (by decide) (by cases r <;> decide)

@[simp] theorem readStatusResourcesState?_text (r : StatusResourcesState) :
    Json.word? StatusResourcesState.all StatusResourcesState.text (.text r.text) = some r :=
  Json.word?_text (by decide) (by cases r <;> decide)

@[simp] theorem readResizeState?_text (r : ResizeState) :
    Json.word? ResizeState.all ResizeState.text (.text r.text) = some r :=
  Json.word?_text (by decide) (by cases r <;> decide)

@[simp] theorem readResourceName?_text (r : ResourceName) :
    Json.word? ResourceName.all ResourceName.text (.text r.text) = some r :=
  Json.word?_text (by decide) (by cases r <;> decide)

@[simp] theorem readResources?_texts (names : List ResourceName) :
    readResources? (.arr (names.map fun r => .text r.text)) = some names := by
  induction names with
  | nil => rfl
  | cons r names ih =>
    simp only [readResources?, List.map_cons, List.mapM_cons, readResourceName?_text] at ih ⊢
    simp [ih]

@[simp] theorem Resize.ofJson?_toJson (r : Resize) : Resize.ofJson? r.toJson = some r := by
  rw [Resize.ofJson?, Resize.toJson, fields?_record]
  · simp [givenOr?]
  · rfl
  · decide

@[simp] theorem States.ofJson?_toJson (s : States) : States.ofJson? s.toJson = some s := by
  rw [States.ofJson?, States.toJson, fields?_record]
  · simp [givenOr?]
  · rfl
  · decide

@[simp] theorem Scale.ofJson?_toJson (s : Scale) : Scale.ofJson? s.toJson = some s := by
  rw [Scale.ofJson?, Scale.toJson, fields?_record]
  · simp [givenOr?]
  · rfl
  · decide

theorem StatusRecord.ofJson?_toJson (r : StatusRecord) : ofJson? r.toJson = some r := by
  rw [ofJson?, toJson, fields?_record]
  · simp [givenOr?, given?]
  · rfl
  · decide

theorem Resize.readsBack_toJson (r : Resize) : r.toJson.ReadsBack :=
  readsBack_record (by simp [readsBack_text])

theorem States.readsBack_toJson (s : States) : s.toJson.ReadsBack :=
  readsBack_record (by simp [readsBack_text, Resize.readsBack_toJson])

theorem Scale.readsBack_toJson (s : Scale) : s.toJson.ReadsBack := by
  have hnames : Json.ReadsBack (.arr (s.enabledForResources.map fun r => .text r.text)) :=
    readsBack_arr (by simp [readsBack_text])
  exact readsBack_record (by simp [readsBack_text, hnames])

theorem StatusRecord.readsBack_toJson (r : StatusRecord) : r.toJson.ReadsBack :=
  readsBack_record
    (by simp [readsBack_text, States.readsBack_toJson, Scale.readsBack_toJson])

namespace StatusRecord

theorem parse?_write (r : StatusRecord) : parse? r.write = some r := by
  rw [parse?, write, Json.parse?_compact r.readsBack_toJson, Option.bind_some, ofJson?_toJson]

theorem statusRecord?_afterWrite (p : Pod) (r : StatusRecord) :
    (p.setAnnotation Key.status r.write).statusRecord? = some r := by
  rw [Pod.statusRecord?, Pod.annotation?_afterSet_self, Option.bind_some, parse?_write]

/-- What the record of a text would be written as, if the text is one of a record. -/
def rewrite? (text : String) : Option String := (parse? text).map write

/-- A record is read as it was written, from its text and from a pod that bears it. A text of a record,
however it is laid out, has a written form that says the same and is its own written form. -/
theorem written_reads_back :
    (∀ (r : StatusRecord) (p : Pod), parse? r.write = some r ∧
        (p.setAnnotation Key.status r.write).statusRecord? = some r) ∧
      ∀ text written, rewrite? text = some written →
        parse? written = parse? text ∧ rewrite? written = some written := by
  refine ⟨fun r p => ⟨parse?_write r, statusRecord?_afterWrite p r⟩, ?_⟩
  intro text written hwritten
  obtain ⟨r, hr, rfl⟩ := Option.map_eq_some_iff.1 hwritten
  have hback := parse?_write r
  refine ⟨hback.trans hr.symm, ?_⟩
  rw [rewrite?, hback]
  rfl

/-- A list of fields with a control character in the first and null for the resources, the last field
left out. -/
theorem listedFields_reads_back :
    ∃ written, rewrite? "[\"\\\"\\u0001\",[],[null]]" = some written ∧
      parse? written = some ⟨"\"\x01", {}, {}, ""⟩ ∧ rewrite? written = some written := by
  have hparse : parse? "[\"\\\"\\u0001\",[],[null]]" = some ⟨"\"\x01", {}, {}, ""⟩ := by
    decide +kernel
  have hwritten : rewrite? "[\"\\\"\\u0001\",[],[null]]" =
      some (write ⟨"\"\x01", {}, {}, ""⟩) := by
    rw [rewrite?, hparse]
    rfl
  obtain ⟨hsame, hfixed⟩ := written_reads_back.2 _ _ hwritten
  exact ⟨_, hwritten, hsame.trans hparse, hfixed⟩

end StatusRecord
end PodSizing
