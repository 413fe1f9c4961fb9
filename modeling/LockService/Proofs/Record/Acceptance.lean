import LockService.Proofs.Json.Scanning
import LockService.Record.Basic
import Mathlib.Data.List.Perm.Basic

/-!
# Which objects are requests

An object text is a request if its members say so, however the text is spelled.  Three members are
known, each by two names; `Request.Describes` is what they have to say for a request, in terms of
the members alone, and `Request.object_texts_accepted` is that object texts are accepted exactly
in this case.

The known members of an object with what they say (`Request.known`) decide everything.  They do
not change when members change places, when members of other names come or go, when a text is
escaped otherwise or a name capitalised, or with the blanks, and so neither does the request.
-/

namespace LockService

open Json

/-! ## Members by name -/

namespace Json

/-- The members of an object by what their names write. -/
inductive Named : Members → List (String × Value) → Prop
  | nil : Named [] []
  | cons {pieces : List Piece} {name : String} {value : Value} {members : Members}
    {named : List (String × Value)} (hname : Writes pieces name.toList)
    (h : Named members named) : Named ((pieces, value) :: members) ((name, value) :: named)

theorem named?_cons (pieces : List Piece) (value : Value) (members : Members) :
    named? ((pieces, value) :: members) = (text? pieces).bind fun name =>
      (named? members).map ((name, value) :: ·) := by
  have hmembers : named? ((pieces, value) :: members)
      = ((text? pieces).map (·, value)).bind fun member =>
        (named? members).bind fun rest => some (member :: rest) :=
    List.mapM_cons
  rw [hmembers]
  cases text? pieces <;> cases named? members <;> rfl

theorem named?_eq_some_iff {members : Members} {named : List (String × Value)} :
    named? members = some named ↔ Named members named := by
  constructor
  · intro h
    induction members generalizing named with
    | nil =>
        cases h
        exact .nil
    | cons member members ih =>
        obtain ⟨pieces, value⟩ := member
        rw [named?_cons] at h
        obtain ⟨name, hname, h⟩ := Option.bind_eq_some_iff.mp h
        obtain ⟨rest, hrest, rfl⟩ := Option.map_eq_some_iff.mp h
        exact .cons (text?_eq_some_iff.mp hname) (ih hrest)
  · intro h
    induction h with
    | nil => rfl
    | cons hname _ ih => rw [named?_cons, text?_eq_some_iff.mpr hname, ih]; rfl

/-- The members that go by one of some names. -/
def going (names : List String) (named : List (String × Value)) : List (String × Value) :=
  named.filter fun member => member.1 ∈ names

/-- One member goes by one of some names, and `value` is what it holds. -/
def Sole (names : List String) (named : List (String × Value)) (value : Value) : Prop :=
  ∃ name, going names named = [(name, value)]

theorem valuesOf_eq_map_going (names : List String) (named : List (String × Value)) :
    valuesOf names named = (going names named).map (·.2) := by
  induction named with
  | nil => rfl
  | cons member named ih =>
      by_cases hmember : member.1 ∈ names
      · simpa [valuesOf, going, hmember] using ih
      · simpa [valuesOf, going, hmember] using ih

theorem valuesOf_eq_nil_iff {names : List String} {named : List (String × Value)} :
    valuesOf names named = [] ↔ going names named = [] := by
  rw [valuesOf_eq_map_going, List.map_eq_nil_iff]

theorem valuesOf_eq_singleton_iff {names : List String} {named : List (String × Value)}
    {value : Value} : valuesOf names named = [value] ↔ Sole names named value := by
  rw [valuesOf_eq_map_going, List.map_eq_singleton_iff]
  constructor
  · rintro ⟨⟨name, value⟩, hgoing, rfl⟩
    exact ⟨name, hgoing⟩
  · rintro ⟨name, hgoing⟩
    exact ⟨(name, value), hgoing, rfl⟩

end Json

namespace Request

/-! ## The members of a request -/

/-- A member that a request knows. -/
inductive Field
  | op
  | target
  | arg
deriving DecidableEq, Repr

/-- The names that a known member goes by. -/
def Field.names : Field → List String
  | .op => ["op", "Op"]
  | .target => ["target", "Target"]
  | .arg => ["arg", "Arg"]

/-- **The members describe a request**: one is the operation and holds a text, at most one is the
target and holds a text, and at most one is the argument and holds a text or null.  Without a
target the target is the empty text, without an argument or with null there is none. -/
structure Describes (named : List (String × Value)) (r : Request) : Prop where
  op : ∃ pieces, Sole Field.op.names named (.text pieces) ∧ Writes pieces r.op.toList
  target : (going Field.target.names named = [] ∧ r.target = "") ∨
    ∃ pieces, Sole Field.target.names named (.text pieces) ∧ Writes pieces r.target.toList
  arg : (going Field.arg.names named = [] ∧ r.arg = none) ∨
    (Sole Field.arg.names named .null ∧ r.arg = none) ∨
    ∃ pieces text, Sole Field.arg.names named (.text pieces) ∧ Writes pieces text.toList ∧
      r.arg = some text

/-- What the members that go by the names of a field say: a text, null, or neither. -/
def said (field : Field) (named : List (String × Value)) : List (Option (Option String)) :=
  (valuesOf field.names named).map Value.asOptionalText?

theorem said_eq_nil_iff {field : Field} {named : List (String × Value)} :
    said field named = [] ↔ going field.names named = [] := by
  rw [said, List.map_eq_nil_iff, valuesOf_eq_nil_iff]

theorem said_eq_text_iff {field : Field} {named : List (String × Value)} {text : String} :
    said field named = [some (some text)] ↔
      ∃ pieces, Sole field.names named (.text pieces) ∧ Writes pieces text.toList := by
  rw [said, List.map_eq_singleton_iff]
  constructor
  · rintro ⟨value, hvalue, hsays⟩
    cases value with
    | text pieces =>
        refine ⟨pieces, valuesOf_eq_singleton_iff.mp hvalue, text?_eq_some_iff.mp ?_⟩
        simpa [Value.asOptionalText?] using hsays
    | _ => simp [Value.asOptionalText?] at hsays
  · rintro ⟨pieces, hsole, hwrites⟩
    refine ⟨.text pieces, valuesOf_eq_singleton_iff.mpr hsole, ?_⟩
    rw [Value.asOptionalText?, text?_eq_some_iff.mpr hwrites, Option.map_some]

theorem said_eq_null_iff {field : Field} {named : List (String × Value)} :
    said field named = [some none] ↔ Sole field.names named .null := by
  rw [said, List.map_eq_singleton_iff]
  constructor
  · rintro ⟨value, hvalue, hsays⟩
    cases value with
    | null => exact valuesOf_eq_singleton_iff.mp hvalue
    | text pieces => simp [Value.asOptionalText?] at hsays
    | _ => simp [Value.asOptionalText?] at hsays
  · intro hsole
    exact ⟨.null, valuesOf_eq_singleton_iff.mpr hsole, rfl⟩

theorem describes_iff {named : List (String × Value)} {r : Request} :
    Describes named r ↔ said .op named = [some (some r.op)] ∧
      (said .target named = [] ∧ r.target = "" ∨ said .target named = [some (some r.target)]) ∧
      (said .arg named = [] ∧ r.arg = none ∨ said .arg named = [some r.arg]) := by
  have harg : said .arg named = [some r.arg] ↔
      (Sole Field.arg.names named .null ∧ r.arg = none) ∨
      ∃ pieces text, Sole Field.arg.names named (.text pieces) ∧ Writes pieces text.toList ∧
        r.arg = some text := by
    cases r.arg with
    | none => simp [said_eq_null_iff]
    | some arg => simp [said_eq_text_iff]
  rw [said_eq_text_iff, said_eq_text_iff, said_eq_nil_iff, said_eq_nil_iff, harg]
  constructor
  · rintro ⟨hop, htarget, harg⟩
    exact ⟨hop, htarget, harg⟩
  · rintro ⟨hop, htarget, harg⟩
    exact ⟨hop, htarget, harg⟩

/-! ## Accepted members -/

theorem asText?_eq_some_iff {value : Value} {text : String} :
    value.asText? = some text ↔ value.asOptionalText? = some (some text) := by
  cases value <;> simp [Value.asText?, Value.asOptionalText?]

theorem required?_says {field : Field} {named : List (String × Value)}
    {told : Option String} :
    (∃ value, required? field.names named = some value ∧ value.asOptionalText? = some told) ↔
      said field named = [some told] := by
  unfold required? said
  split
  · next value hvalues => simp [hvalues]
  · next hvalues =>
    have hne : ∀ value, valuesOf field.names named ≠ [value] := hvalues
    simp [List.map_eq_singleton_iff, hne]

theorem optional?_says {field : Field} {absent : Value} {named : List (String × Value)}
    {told : Option String} :
    (∃ value, optional? field.names absent named = some value ∧
      value.asOptionalText? = some told) ↔
      (said field named = [] ∧ absent.asOptionalText? = some told) ∨
        said field named = [some told] := by
  unfold optional? said
  split
  · next hvalues => simp [hvalues]
  · next value hvalues => simp [hvalues]
  · next hempty hvalues =>
    have hne : ∀ value, valuesOf field.names named ≠ [value] := hvalues
    have hempty : valuesOf field.names named ≠ [] := hempty
    simp [List.map_eq_singleton_iff, hne, hempty]

theorem ofValues?_eq_some_iff {op target arg : Value} {r : Request} :
    ofValues? op target arg = some r ↔ op.asOptionalText? = some (some r.op) ∧
      target.asOptionalText? = some (some r.target) ∧ arg.asOptionalText? = some r.arg := by
  rw [← asText?_eq_some_iff, ← asText?_eq_some_iff]
  unfold ofValues?
  constructor
  · intro h
    split at h
    · next hop htarget harg =>
      cases h
      exact ⟨hop, htarget, harg⟩
    · cases h
  · rintro ⟨hop, htarget, harg⟩
    rw [hop, htarget, harg]

/-- **The members of an object are a request if and only if they describe it.** -/
theorem ofMembers?_eq_some_iff {named : List (String × Value)} {r : Request} :
    ofMembers? named = some r ↔ Describes named r := by
  have hparts : ofMembers? named = some r ↔
      (∃ op, required? Field.op.names named = some op ∧
        op.asOptionalText? = some (some r.op)) ∧
      (∃ target, optional? Field.target.names noTarget named = some target ∧
        target.asOptionalText? = some (some r.target)) ∧
      ∃ arg, optional? Field.arg.names .null named = some arg ∧
        arg.asOptionalText? = some r.arg := by
    rw [ofMembers?, show ["op", "Op"] = Field.op.names from rfl,
      show ["target", "Target"] = Field.target.names from rfl,
      show ["arg", "Arg"] = Field.arg.names from rfl]
    cases required? Field.op.names named <;>
      cases optional? Field.target.names noTarget named <;>
      cases optional? Field.arg.names .null named <;>
      simp [ofValues?_eq_some_iff]
  have htarget : noTarget.asOptionalText? = some (some r.target) ↔ r.target = "" :=
    ⟨fun h => (Option.some.inj (Option.some.inj h)).symm, fun h => by rw [h]; rfl⟩
  have harg : Value.null.asOptionalText? = some r.arg ↔ r.arg = none :=
    ⟨fun h => (Option.some.inj h).symm, fun h => by rw [h]; rfl⟩
  rw [hparts, required?_says, optional?_says, optional?_says, describes_iff, htarget, harg]

/-! ## Known members -/

/-- The known member that goes by a name. -/
def Field.ofName? (name : String) : Option Field :=
  [Field.op, .target, .arg].find? fun field => name ∈ field.names

theorem Field.ofName?_eq_some_iff {name : String} {field : Field} :
    ofName? name = some field ↔ name ∈ field.names := by
  cases field <;> simp [ofName?, List.find?_cons, names] <;> grind

/-- The known members among some members, each with what it says. -/
def known (named : List (String × Value)) : List (Field × Option (Option String)) :=
  named.filterMap fun (name, value) => (Field.ofName? name).map (·, value.asOptionalText?)

/-- What a field says is among what the known members say. -/
theorem said_eq_filterMap_known (field : Field) (named : List (String × Value)) :
    said field named
      = (known named).filterMap fun (other, told) => if other = field then some told else none := by
  rw [said, valuesOf, known, List.map_filterMap, List.filterMap_filterMap]
  refine List.filterMap_congr fun ⟨name, value⟩ _ => ?_
  by_cases hname : name ∈ field.names
  · simp [hname, Field.ofName?_eq_some_iff.mpr hname]
  · have hother : ∀ other, Field.ofName? name = some other → other ≠ field := by
      rintro other hother rfl
      exact hname (Field.ofName?_eq_some_iff.mp hother)
    cases hfield : Field.ofName? name with
    | none => simp [hname, hfield]
    | some other => simp [hname, hfield, hother other hfield]

theorem said_perm {named named' : List (String × Value)} (h : (known named).Perm (known named'))
    (field : Field) : (said field named).Perm (said field named') := by
  rw [said_eq_filterMap_known, said_eq_filterMap_known]
  exact h.filterMap _

/-- Members whose known ones say the same, in whatever order, describe the same request. -/
theorem describes_congr {named named' : List (String × Value)}
    (h : (known named).Perm (known named')) (r : Request) :
    Describes named r ↔ Describes named' r := by
  have hnil : ∀ field, said field named = [] ↔ said field named' = [] := fun field => by
    rw [← List.length_eq_zero_iff, (said_perm h field).length_eq, List.length_eq_zero_iff]
  have hsingle : ∀ field told, said field named = [told] ↔ said field named' = [told] :=
    fun field told => by
      rw [← List.perm_singleton, ← List.perm_singleton]
      exact ⟨(said_perm h field).symm.trans, (said_perm h field).trans⟩
  rw [describes_iff, describes_iff, hsingle, hsingle, hsingle, hnil, hnil]

/-! ## Texts -/

/-- The request that a text is read as. -/
def ofText? (text : String) : Option Request :=
  (Value.parse? text).bind Record.ofJson?

/-- A text spells an object with some members, whose names are what they write. -/
def SpellsObject (named : List (String × Value)) (text : String) : Prop :=
  ∃ members, (Value.object members).Spells text ∧ Named members named

theorem ofText?_eq_some_iff {named : List (String × Value)} {text : String}
    (h : SpellsObject named text) {r : Request} :
    ofText? text = some r ↔ Describes named r := by
  obtain ⟨members, htext, hnamed⟩ := h
  have hread : ofText? text = (named? members).bind ofMembers? := by
    rw [ofText?, Value.parse?_eq_some_iff.mpr htext]
    rfl
  rw [hread, named?_eq_some_iff.mpr hnamed, Option.bind_some, ofMembers?_eq_some_iff]

/-- A text that begins with a brace is accepted only if it spells an object whose names all write
something. -/
theorem ofText?_eq_none {text : String} {blanks rest : List Char} (hblanks : AreBlank blanks)
    (htext : text.toList = blanks ++ '{' :: rest) (h : ∀ named, ¬ SpellsObject named text) :
    ofText? text = none := by
  rw [Option.eq_none_iff_forall_ne_some]
  intro r hr
  obtain ⟨v, hv, hr⟩ := Option.bind_eq_some_iff.mp hr
  have hspells := Value.parse?_eq_some_iff.mp hv
  obtain ⟨members, rfl⟩ := Value.exists_members_of_spells hspells hblanks htext
  obtain ⟨named, hnamed, -⟩ := Option.bind_eq_some_iff.mp hr
  exact h named ⟨members, hspells, named?_eq_some_iff.mp hnamed⟩

/-- A known member is there once at most, and says a text or null. -/
theorem Describes.said_eq {named : List (String × Value)} {r : Request} (h : Describes named r)
    (field : Field) : said field named = [] ∨ ∃ told, said field named = [some told] := by
  obtain ⟨hop, htarget, harg⟩ := describes_iff.mp h
  cases field with
  | op => exact .inr ⟨_, hop⟩
  | target => exact htarget.imp And.left (⟨_, ·⟩)
  | arg => exact harg.imp And.left (⟨_, ·⟩)

/-- No request is described with a known member twice, whichever of its names are used. -/
theorem not_describes_of_twice {front between back : List (String × Value)}
    {name name' : String} {value value' : Value} {field : Field} (hname : name ∈ field.names)
    (hname' : name' ∈ field.names) (r : Request) :
    ¬ Describes (front ++ (name, value) :: between ++ (name', value') :: back) r := by
  intro h
  have hlength : 2 ≤ (said field
      (front ++ (name, value) :: between ++ (name', value') :: back)).length := by
    simp only [said, valuesOf_eq_map_going, going, List.filter_append, List.filter_cons,
      hname, hname', decide_true, if_true, List.length_map, List.length_append, List.length_cons]
    omega
  obtain hsaid | ⟨told, hsaid⟩ := h.said_eq field
  all_goals
    rw [hsaid] at hlength
    simp at hlength

/-- No request is described with a known member that holds a text whose pieces write nothing. -/
theorem not_describes_of_unpaired {named : List (String × Value)} {name : String}
    {pieces : List Piece} {field : Field} (hmember : (name, .text pieces) ∈ named)
    (hname : name ∈ field.names) (hpieces : ∀ cs, ¬ Writes pieces cs) (r : Request) :
    ¬ Describes named r := by
  intro h
  have hsays : none ∈ said field named := by
    have htext : text? pieces = none := Option.eq_none_iff_forall_ne_some.mpr
      fun text htext => hpieces _ (text?_eq_some_iff.mp htext)
    rw [said, valuesOf_eq_map_going, List.map_map, List.mem_map]
    refine ⟨(name, .text pieces), ?_, by simp [Value.asOptionalText?, htext]⟩
    simp [going, hmember, hname]
  obtain hsaid | ⟨told, hsaid⟩ := h.said_eq field
  all_goals simp [hsaid] at hsays

/-- **Object texts are accepted exactly if their members describe a request, however they are
spelled.**

A text that spells an object is read as the request that the members describe, and as none if they
describe none.  A text that begins with a brace and is not the spelling of an object, or of one
with a name that writes nothing, is refused.

So two texts are read alike when their known members say the same, in whatever order and by which
names, and whatever else is different.  A known member that is there twice is refused, and so is
one that holds a text with half of a surrogate pair in it. -/
theorem object_texts_accepted :
    (∀ named text r, SpellsObject named text → (ofText? text = some r ↔ Describes named r)) ∧
    (∀ text blanks rest, AreBlank blanks → text.toList = blanks ++ '{' :: rest →
      (∀ named, ¬ SpellsObject named text) → ofText? text = none) ∧
    (∀ named named' text text', SpellsObject named text → SpellsObject named' text' →
      (known named).Perm (known named') → ofText? text = ofText? text') ∧
    (∀ (field : Field) text front name value between name' value' back, name ∈ field.names →
      name' ∈ field.names →
      SpellsObject (front ++ (name, value) :: between ++ (name', value') :: back) text →
      ofText? text = none) ∧
    (∀ (field : Field) named text name pieces, name ∈ field.names → (name, .text pieces) ∈ named →
      (∀ cs, ¬ Writes pieces cs) → SpellsObject named text → ofText? text = none) := by
  have hrefused : ∀ named text, SpellsObject named text → (∀ r, ¬ Describes named r) →
      ofText? text = none := fun named text htext hnone =>
    Option.eq_none_iff_forall_ne_some.mpr fun r hr =>
      hnone r ((ofText?_eq_some_iff htext).mp hr)
  refine ⟨fun named text r htext => ofText?_eq_some_iff htext,
    fun text blanks rest => ofText?_eq_none, ?_, ?_, ?_⟩
  · intro named named' text text' htext htext' hknown
    refine Option.ext fun r => ?_
    rw [ofText?_eq_some_iff htext, ofText?_eq_some_iff htext', describes_congr hknown]
  · intro field text front name value between name' value' back hname hname' htext
    exact hrefused _ _ htext (not_describes_of_twice hname hname')
  · intro field named text name pieces hname hmember hpieces htext
    exact hrefused _ _ htext (not_describes_of_unpaired hmember hname hpieces)

/-- Blanks, an escaped and capitalised name, and a nested member that nobody knows. -/
example : ofText? " \x7b\"x\": [[1e5, null]], \"\\u0054arget\": \"A\\u00e9\", \"Op\":\"lock\" \x7d"
    = some ⟨"lock", "Aé", none⟩ := by
  decide

theorem object_texts_accepted_capitalised :
    SpellsObject [("x", .array [.number]), ("Op", .text [.char 'g']), ("arg", .null)]
        "\x7b\"x\": [1], \"Op\": \"g\", \"arg\": null\x7d" ∧
      ofText? "\x7b\"x\": [1], \"Op\": \"g\", \"arg\": null\x7d" = some ⟨"g", "", none⟩ := by
  have hspells : SpellsObject [("x", .array [.number]), ("Op", .text [.char 'g']), ("arg", .null)]
      "\x7b\"x\": [1], \"Op\": \"g\", \"arg\": null\x7d" :=
    ⟨_, Value.parse?_eq_some_iff.mp rfl, named?_eq_some_iff.mp rfl⟩
  have hdescribes : Describes
      [("x", .array [.number]), ("Op", .text [.char 'g']), ("arg", .null)] ⟨"g", "", none⟩ :=
    describes_iff.mpr ⟨rfl, .inl ⟨rfl, rfl⟩, .inr rfl⟩
  exact ⟨hspells, (object_texts_accepted.1 _ _ _ hspells).mpr hdescribes⟩

end Request

end LockService
