import Mathlib.Data.List.Nodup
import SceneAudit.Json.Decode

/-!
# Saying the same in JSON

What a JSON value says does not change if the fields of an object change places, nor if an object
gets a further field of a name that it has no use for. Which objects there are within a value, and
which names they use, depends on what the value is to be decoded as. A form says so.

## Main definitions

* `Json.Form`: the objects within a value and the names of their fields.
* `Json.Form.Restates`: a value that differs in the order of fields and in further fields only.
* `Json.Form.Respects`: a decoder that takes no notice of such a difference.
* `Json.Form.Decodes`: a value that is decoded from some JSON and from whatever restates it.

## Main results

* `Json.Form.respects_record`: a decoder of objects does so if it goes by the fields in use.
* `Json.Form.respects_arrange?`: a decoder of a record type does so if the decoders of its fields
  do.
* `Json.Form.Respects.list?`: a decoder of lists does so if the decoder of the items does.
-/

namespace SceneAudit.Json

/-- The objects within a value, and the names that each of them has fields for. -/
inductive Form where
  /-- A value within which no object is looked for. -/
  | leaf
  | list (item : Form)
  | record (fields : List (String × Form))

namespace Form

/-- The second value differs from the first one in the order of the fields of its objects and in
further fields of unknown names, whatever the values of these fields are. -/
inductive Restates : Form → Json → Json → Prop
  | refl (form : Form) (json : Json) : Restates form json json
  | trans {form : Form} {json middle other : Json} (first : Restates form json middle)
    (second : Restates form middle other) : Restates form json other
  | permute {forms : List (String × Form)} {fields others : List (String × Json)}
    (perm : fields.Perm others) : Restates (record forms) (.record fields) (.record others)
  | extend {forms : List (String × Form)} {name : String} (unknown : name ∉ forms.map Prod.fst)
    (value : Json) (fields : List (String × Json)) :
    Restates (record forms) (.record fields) (.record ((name, value) :: fields))
  | field {forms : List (String × Form)} {name : String} {form : Form}
    (known : (name, form) ∈ forms) {value other : Json} (restates : Restates form value other)
    (before after : List (String × Json)) :
    Restates (record forms) (.record (before ++ (name, value) :: after))
      (.record (before ++ (name, other) :: after))
  | item {form : Form} {value other : Json} (restates : Restates form value other)
    (before after : List Json) :
    Restates (list form) (.list (before ++ value :: after)) (.list (before ++ other :: after))

/-- A decoder that does not tell a value from one that says the same. -/
def Respects {α : Type} (form : Form) (decode : Json → Option α) : Prop :=
  ∀ json other, form.Restates json other → decode other = decode json

/-- The value is decoded from the JSON, and from whatever says the same. -/
def Decodes {α : Type} (form : Form) (decode : Json → Option α) (json : Json) (value : α) : Prop :=
  decode json = some value ∧ ∀ other, form.Restates json other → decode other = some value

variable {α : Type} {form : Form} {forms : List (String × Form)} {decode : Json → Option α}
  {json other : Json}

theorem Respects.decodes {value : α} (respects : form.Respects decode)
    (read : decode json = some value) : form.Decodes decode json value :=
  ⟨read, fun other restates => (respects json other restates).trans read⟩

/-! ### Related options -/

theorem rel_refl {β : Type} {r : β → β → Prop} (refl : ∀ value, r value value) :
    ∀ value, Option.Rel r value value
  | none => .none
  | some value => .some (refl value)

private theorem rel_bind {β γ : Type} {r : β → β → Prop} {t : γ → γ → Prop} {value other : Option β}
    (same : Option.Rel r value other) {build : β → Option γ} {build' : β → Option γ}
    (next : ∀ found found', r found found' → Option.Rel t (build found) (build' found')) :
    Option.Rel t (value.bind build) (other.bind build') := by
  cases same with
  | none => exact .none
  | some same => exact next _ _ same

theorem bind_eq_of_rel {β γ : Type} {r : β → β → Prop} {value other : Option β}
    (same : Option.Rel r value other) {build : β → Option γ}
    (next : ∀ found found', r found found' → build found' = build found) :
    other.bind build = value.bind build := by
  cases same with
  | none => rfl
  | some same => exact next _ _ same

theorem eq_of_rel {β : Type} {r : β → β → Prop} (eq : ∀ {left right}, r left right → right = left)
    {value other : Option β} (same : Option.Rel r value other) : other = value := by
  cases same with
  | none => rfl
  | some same => rw [eq same]

/-! ### Values without objects, and lists -/

private theorem Restates.eq_of_leaf (restates : leaf.Restates json other) : other = json := by
  generalize shape : leaf = form at restates
  induction restates with
  | refl => rfl
  | trans _ _ first second => exact (second shape).trans (first shape)
  | permute | extend | field | item => contradiction

/-- A list is decoded without notice of a difference if its items are. -/
theorem Respects.list? (respects : form.Respects decode) :
    (list form).Respects (Json.list? decode) := by
  intro json other restates
  generalize shape : list form = whole at restates
  induction restates with
  | refl => rfl
  | trans _ _ first second => exact (second shape).trans (first shape)
  | item same before after =>
    obtain rfl := Form.list.inj shape
    simp only [Json.list?, List.mapM_append, List.mapM_cons, respects _ _ same]
  | permute | extend | field => contradiction

/-! ### The fields of an object -/

/-- The same fields are there, missing or repeated in two objects, and say the same if they are
there. -/
def SameFields (forms : List (String × Form)) (fields others : List (String × Json)) : Prop :=
  ∀ entry ∈ forms, Option.Rel (Option.Rel entry.2.Restates)
    (Json.field? fields entry.1) (Json.field? others entry.1)

private theorem sameFields_of_eq {fields others : List (String × Json)}
    (same : ∀ entry ∈ forms, Json.field? others entry.1 = Json.field? fields entry.1) :
    SameFields forms fields others := by
  intro entry mem
  rw [same entry mem]
  exact rel_refl (rel_refl (Restates.refl _)) _

/-- A field is the only one of its name with one value if it is so with another value. -/
private theorem rel_only?_map {r : Json → Json → Prop} {name : String} {value other : Json}
    (same : r value other) : ∀ before after : List (String × Json),
      Option.Rel (Option.Rel r)
        ((only? (before ++ (name, value) :: after)).map (Option.map Prod.snd))
        ((only? (before ++ (name, other) :: after)).map (Option.map Prod.snd))
  | [], [] => .some (.some same)
  | [], _ :: _ | [_], _ | _ :: _ :: _, _ => .none

private theorem filter_cons_self (name : String) (value : Json) (fields : List (String × Json)) :
    ((name, value) :: fields).filter (fun field => field.1 == name) =
      (name, value) :: fields.filter fun field => field.1 == name :=
  List.filter_cons_of_pos (beq_self_eq_true name)

theorem filter_cons_of_ne {name key : String} (ne : name ≠ key) (value : Json)
    (fields : List (String × Json)) :
    ((name, value) :: fields).filter (fun field => field.1 == key) =
      fields.filter fun field => field.1 == key :=
  List.filter_cons_of_neg (by simpa using ne)

private theorem sameFields_replace (distinct : (forms.map Prod.fst).Nodup) {name : String}
    (known : (name, form) ∈ forms) {value other : Json} (same : form.Restates value other)
    (before after : List (String × Json)) :
    SameFields forms (before ++ (name, value) :: after) (before ++ (name, other) :: after) := by
  rintro ⟨key, sought⟩ mem
  by_cases named : name = key
  · subst named
    obtain rfl : form = sought :=
      (Prod.ext_iff.1 (List.inj_on_of_nodup_map distinct known mem rfl)).2
    simp only [Json.field?, List.filter_append, filter_cons_self]
    exact rel_only?_map same _ _
  · simp only [Json.field?, List.filter_append, filter_cons_of_ne named]
    exact rel_refl (rel_refl (Restates.refl _)) _

/-- **Objects that say the same.** A decoder takes no notice of the order of fields and of further
fields if it goes by the fields that have a name in use. -/
theorem respects_record (distinct : (forms.map Prod.fst).Nodup)
    (byFields : ∀ fields others : List (String × Json), SameFields forms fields others →
      decode (.record others) = decode (.record fields)) :
    (record forms).Respects decode := by
  intro json other restates
  -- Only what restates an object is of interest, which the induction would forget.
  generalize shape : record forms = whole at restates
  induction restates with
  | refl => rfl
  | trans _ _ first second => exact (second shape).trans (first shape)
  | permute perm =>
    exact byFields _ _ (sameFields_of_eq fun entry _ => (field?_perm perm entry.1).symm)
  | @extend _ name unknown value fields =>
    obtain rfl := Form.record.inj shape
    refine byFields _ _ (sameFields_of_eq fun entry mem => ?_)
    have ne : name ≠ entry.1 := by
      rintro rfl
      exact unknown (List.mem_map_of_mem mem)
    rw [Json.field?, Json.field?, filter_cons_of_ne ne]
  | field known same before after =>
    obtain rfl := Form.record.inj shape
    exact byFields _ _ (sameFields_replace distinct known same before after)
  | item => contradiction

/-! ### The fields in the order of their declaration -/

/-- The values of the fields of a record type, which are there or missing in both lists. -/
inductive SameValues : List (String × Form) → List (Option Json) → List (Option Json) → Prop
  | nil : SameValues [] [] []
  | cons {name : String} {form : Form} {forms : List (String × Form)} {value other : Option Json}
    {values others : List (Option Json)} (first : Option.Rel form.Restates value other)
    (rest : SameValues forms values others) :
    SameValues ((name, form) :: forms) (value :: values) (other :: others)

theorem SameFields.mapM {fields others : List (String × Json)} :
    ∀ {forms : List (String × Form)}, SameFields forms fields others →
      Option.Rel (SameValues forms) ((forms.map Prod.fst).mapM (Json.field? fields))
        ((forms.map Prod.fst).mapM (Json.field? others))
  | [], _ => .some .nil
  | (name, form) :: forms, same => by
    obtain ⟨first, rest⟩ := List.forall_mem_cons.1 same
    rw [List.map_cons, List.mapM_cons, List.mapM_cons]
    exact rel_bind first fun _ _ value => rel_bind (mapM rest) fun _ _ values =>
      .some (.cons value values)

/-- A decoder of a record type takes no notice of a difference if it goes by the values of the
fields, none of which tells values apart that say the same. -/
theorem respects_arrange? (distinct : (forms.map Prod.fst).Nodup)
    {build : List (Option Json) → Option α}
    (arranged : ∀ json, decode json = (arrange? (forms.map Prod.fst) json).bind build)
    (byValues : ∀ values others, SameValues forms values others → build others = build values) :
    (record forms).Respects decode := by
  refine respects_record distinct fun fields others same => ?_
  rw [arranged, arranged, arrange?, arrange?]
  exact bind_eq_of_rel same.mapM byValues

variable {value other : Option Json}

theorem eq_of_rel_leaf (same : Option.Rel leaf.Restates value other) : other = value :=
  eq_of_rel Restates.eq_of_leaf same

/-- A field within which no object is looked for has the same value. -/
theorem SameFields.field?_eq {fields others : List (String × Json)} {name : String}
    (same : SameFields forms fields others) (known : (name, leaf) ∈ forms) :
    Json.field? others name = Json.field? fields name :=
  eq_of_rel eq_of_rel_leaf (same _ known)

theorem Respects.required (respects : form.Respects decode)
    (same : Option.Rel form.Restates value other) :
    Json.required decode other = Json.required decode value :=
  bind_eq_of_rel same respects

theorem Respects.withDefault (respects : form.Respects decode)
    (same : Option.Rel form.Restates value other) (default : α) :
    Json.withDefault decode default other = Json.withDefault decode default value := by
  cases same with
  | none => rfl
  | some same => exact respects _ _ same

end Form

end SceneAudit.Json
