import LcdPico.Lib.CText

/-!
# JSON trees with the lookups of cJSON

A JSON tree over a type of numbers, and the functions that read it. An object is
searched without regard to case, and its first item of that name is taken. An
object that a program builds item by item, leaving some out, is `objectOf`: the
lemmas say which item each name gets.
-/

/-- A JSON value, with numbers of type `D`. -/
inductive Json (D : Type) where
  | null
  | bool (b : Bool)
  | number (d : D)
  | string (s : CString)
  | array (items : List (Json D))
  | object (items : List (CString × Json D))

namespace Json

variable {D : Type}

/-- The names are equal without regard to case. -/
def sameName (a b : CString) : Bool := a.map Char.toLower == b.map Char.toLower

/-- `cJSON_GetObjectItem` -/
def getObjectItem (json : Json D) (name : CString) : Option (Json D) :=
  match json with
  | object items => (items.find? fun item => sameName name item.1).map Prod.snd
  | _ => none

/-- The values `cJSON_ArrayForEach` goes through. -/
def children : Json D → List (Json D)
  | array items => items
  | object items => items.map Prod.snd
  | _ => []

/-- `cJSON_GetStringValue` -/
def getStringValue : Json D → Option CString
  | string s => some s
  | _ => none

/-- `valuestring`, NULL in an item that is no string -/
def valuestring (item : Json D) : Option CString := item.getStringValue

/-- `cJSON_GetNumberValue`, where `nan` is the value of an item that is no number. -/
def getNumberValue (nan : D) : Json D → D
  | number d => d
  | _ => nan

/-- `cJSON_IsTrue` -/
def isTrue : Json D → Bool
  | bool b => b
  | _ => false

/-- The object that gets an item for each name that has one, in this order. -/
def objectOf (fields : List (CString × Option (Json D))) : Json D :=
  object (fields.filterMap fun f => f.2.map fun item => (f.1, item))

theorem sameName_eq_true {a b : CString} :
    sameName a b = true ↔ a.map Char.toLower = b.map Char.toLower := beq_iff_eq

/-- The first field answers for its name, if it has an item. -/
theorem getObjectItem_objectOf_cons (f : CString × Option (Json D))
    (fields : List (CString × Option (Json D))) (name : CString) :
    getObjectItem (objectOf (f :: fields)) name =
      (if sameName name f.1 then f.2 else none).or (getObjectItem (objectOf fields) name) := by
  obtain ⟨key, value⟩ := f
  cases value with
  | none => simp [getObjectItem, objectOf]
  | some item =>
    cases hsame : sameName name key with
    | true => simp [getObjectItem, objectOf, hsame]
    | false => simp [getObjectItem, objectOf, hsame]

/-- No field has the name. -/
theorem getObjectItem_objectOf_none {fields : List (CString × Option (Json D))} {name : CString}
    (h : ∀ f ∈ fields, sameName name f.1 = false) :
    getObjectItem (objectOf fields) name = none := by
  induction fields with
  | nil => rfl
  | cons f fields ih =>
    have hf : sameName name f.1 = false := h f (List.mem_cons_self ..)
    rw [getObjectItem_objectOf_cons, hf, ih fun g hg => h g (List.mem_cons_of_mem f hg)]
    rfl

/-- Each name gets its own item, or none if that was left out. -/
theorem getObjectItem_of_mem {fields : List (CString × Option (Json D))}
    (hnames : (fields.map fun f => f.1.map Char.toLower).Nodup) {name : CString}
    {item : Option (Json D)} (h : (name, item) ∈ fields) :
    getObjectItem (objectOf fields) name = item := by
  induction fields with
  | nil => cases h
  | cons f fields ih =>
    rw [List.map_cons, List.nodup_cons] at hnames
    obtain ⟨hfirst, hrest⟩ := hnames
    rw [getObjectItem_objectOf_cons]
    rcases List.mem_cons.mp h with rfl | h
    · have hothers : getObjectItem (objectOf fields) name = none := by
        refine getObjectItem_objectOf_none fun f hf => ?_
        by_contra hsame
        have heq := sameName_eq_true.mp (Bool.not_eq_false _ ▸ hsame)
        exact hfirst (List.mem_map.mpr ⟨f, hf, heq.symm⟩)
      rw [hothers, Option.or_none, if_pos (sameName_eq_true.mpr rfl)]
    · have hne : ¬ sameName name f.1 = true := by
        intro hsame
        exact hfirst (List.mem_map.mpr ⟨(name, item), h, sameName_eq_true.mp hsame⟩)
      rw [if_neg hne, Option.none_or, ih hrest h]

/-- The same, for a field that is found by its name. -/
theorem getObjectItem_objectOf {fields : List (CString × Option (Json D))} (names : List CString)
    (hfields : fields.map Prod.fst = names) (hnames : (names.map (List.map Char.toLower)).Nodup)
    {name : CString} {item : Option (Json D)}
    (h : (fields.find? fun f => sameName name f.1) = some (name, item)) :
    getObjectItem (objectOf fields) name = item := by
  refine getObjectItem_of_mem ?_ (List.mem_of_find?_eq_some h)
  rw [← hfields, List.map_map] at hnames
  exact hnames

end Json
