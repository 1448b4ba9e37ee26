import Yang.Schema.Stream

/-!
This module contains what parsing makes of a text: documents, a problem that is located in the source, or a breakdown.
It breaks down just when a scalar of the text stands for no value, or when the first value that is no document has a
name that cannot be written.
-/

namespace Yang

open Yang.Yaml (Value)

namespace Document

def counted (values : List Value) : List Value :=
  values.filter (fun value => !(value matches .null))

def Describes (value : Value) (document : Document) : Prop :=
  ∀ label, ofValue label value = .ok document

def Nameless (value : Value) : Prop :=
  ∀ label, ofValue label value = .error (.breakdown (.scalar .tooManyDigits))

/--
The faults at which the parsing of a text breaks down.
-/
inductive Breaks (text : String) : Yaml.ScalarFault → Prop
  | scalar {fault : Yaml.ScalarFault} (h : Yaml.load text = .error (.scalar fault)) : Breaks text fault
  | name {values before after : List Value} {value : Value} (h : Yaml.load text = .ok values)
    (hsplit : counted values = before ++ value :: after) (hbefore : ∀ v ∈ before, ∃ d, Describes v d)
    (hvalue : Nameless value) : Breaks text .tooManyDigits

theorem ofReading_spec (word : String) (entries : Entries) (reading : Checked Document) :
    (∃ d, ∀ label, ofReading label word entries reading = .ok d)
      ∨ (∃ cause, ∀ label, ofReading label word entries reading = .error (.problem ⟨label, cause⟩))
      ∨ ∀ label, ofReading label word entries reading = .error (.breakdown (.scalar .tooManyDigits)) := by
  unfold ofReading
  cases reading with
  | good document => exact .inl ⟨document, fun _ => rfl⟩
  | bad issues =>
    dsimp only
    split
    · exact .inr (.inl ⟨_, fun _ => rfl⟩)
    · exact .inr (.inr fun _ => rfl)

theorem ofValue_spec (value : Value) :
    (∃ d, Describes value d) ∨ (∃ cause, ∀ label, ofValue label value = .error (.problem ⟨label, cause⟩))
      ∨ Nameless value := by
  unfold Describes Nameless ofValue
  split
  · split
    · apply ofReading_spec
    · split
      · apply ofReading_spec
      · exact .inr (.inl ⟨_, fun _ => rfl⟩)
  · exact .inr (.inl ⟨_, fun _ => rfl⟩)

section

variable {source : String} {label : Nat → String}

theorem ofValues_spec (index : Nat) (values : List Value) :
    (∃ documents, ofValues source label index values = .ok documents ∧ documents.length = values.length)
      ∨ (∃ k cause, ofValues source label index values = .error (.problem ⟨label k, cause⟩))
      ∨ ∃ before value after, values = before ++ value :: after ∧ (∀ v ∈ before, ∃ d, Describes v d)
        ∧ Nameless value := by
  induction values generalizing index with
  | nil => exact .inl ⟨[], rfl, rfl⟩
  | cons value rest ih =>
    unfold ofValues
    rcases ofValue_spec value with ⟨d, hd⟩ | ⟨cause, hcause⟩ | hnameless
    · rw [hd]
      rcases ih (index + 1) with ⟨documents, hdocuments, hlength⟩ | ⟨k, cause, hcause⟩ | h
      · rw [hdocuments]
        refine .inl ⟨_, rfl, ?_⟩
        rw [List.length_cons, List.length_cons, hlength]
      · rw [hcause]
        exact .inr (.inl ⟨k, cause, rfl⟩)
      · obtain ⟨before, bad, after, rfl, hbefore, hbad⟩ := h
        refine .inr (.inr ⟨value :: before, bad, after, rfl, ?_, hbad⟩)
        rw [List.forall_mem_cons]
        exact ⟨⟨d, hd⟩, hbefore⟩
    · rw [hcause]
      exact .inr (.inl ⟨index, cause, rfl⟩)
    · exact .inr (.inr ⟨[], value, rest, rfl, List.forall_mem_nil _, hnameless⟩)

theorem ofValues_of_nameless {before after : List Value} {value : Value} (hbefore : ∀ v ∈ before, ∃ d, Describes v d)
    (hvalue : Nameless value) (index : Nat) :
    ofValues source label index (before ++ value :: after) = .error (.breakdown (.scalar .tooManyDigits)) := by
  induction before generalizing index with
  | nil =>
    rw [List.nil_append]
    unfold ofValues
    rw [hvalue]
    rfl
  | cons first rest ih =>
    rw [List.forall_mem_cons] at hbefore
    obtain ⟨⟨d, hd⟩, hrest⟩ := hbefore
    rw [List.cons_append]
    unfold ofValues
    rw [hd, ih hrest]
    rfl

end

def labelOf (source : String) (count index : Nat) : String :=
  if count = 1 then source else source ++ "[" ++ toString index ++ "]"

theorem labelOf_eq_append (source : String) (count index : Nat) :
    ∃ more, labelOf source count index = source ++ more := by
  unfold labelOf
  split
  · exact ⟨"", String.append_empty.symm⟩
  · rw [String.append_assoc, String.append_assoc]
    exact ⟨_, rfl⟩

theorem parse_of_load_eq_ok {text : String} {values : List Value} (h : Yaml.load text = .ok values) (source : String) :
    parse text source = if counted values = [] then .error (.problem ⟨source, .noDocuments⟩)
      else ofValues source (labelOf source (counted values).length) 0 (counted values) := by
  unfold parse
  rw [h]
  unfold counted
  dsimp only
  generalize values.filter (fun value => !(value matches .null)) = values
  cases values with
  | nil => rfl
  | cons value rest => rfl

theorem parse_of_breaks {text : String} {fault : Yaml.ScalarFault} (h : Breaks text fault) (source : String) :
    parse text source = .error (.breakdown (.scalar fault)) := by
  cases h with
  | scalar hload =>
    unfold parse
    rw [hload]
    rfl
  | name hload hsplit hbefore hvalue =>
    rw [parse_of_load_eq_ok hload, hsplit, if_neg]
    · exact ofValues_of_nameless hbefore hvalue 0
    · simp

/--
The outcomes that parsing has: documents, a problem that is located in the source, or a breakdown for which the text is
to blame.
-/
inductive Parsed (text source : String) : Except Refusal (List Document) → Prop
  | documents (first : Document) (rest : List Document) : Parsed text source (.ok (first :: rest))
  | problem {label : String} (cause : Cause) (h : ∃ more, label = source ++ more) :
    Parsed text source (.error (.problem ⟨label, cause⟩))
  | breakdown {fault : Yaml.ScalarFault} (h : Breaks text fault) :
    Parsed text source (.error (.breakdown (.scalar fault)))

theorem Parsed.refuse {text : String} (source : String) {fault : Yaml.Fault} (h : Yaml.load text = .error fault) :
    Parsed text source (.error (refuse source fault)) := by
  cases fault with
  | character code position =>
    exact .problem _ ⟨"", String.append_empty.symm⟩
  | problem cause line =>
    exact .problem _ ⟨":" ++ toString (line + 1), String.append_assoc⟩
  | scalar fault => exact .breakdown (.scalar h)

theorem parsed (text source : String) : Parsed text source (parse text source) := by
  cases hload : Yaml.load text with
  | error fault =>
    unfold parse
    rw [hload]
    exact .refuse source hload
  | ok values =>
    rw [parse_of_load_eq_ok hload]
    split
    · exact .problem _ ⟨"", String.append_empty.symm⟩
    · next hne =>
      rcases @ofValues_spec source (labelOf source (counted values).length) 0 (counted values) with h | h | h
      · obtain ⟨documents, hdocuments, hlength⟩ := h
        rw [hdocuments]
        cases documents with
        | nil => exact absurd (List.length_eq_zero_iff.1 hlength.symm) hne
        | cons first rest => exact .documents first rest
      · obtain ⟨k, cause, hcause⟩ := h
        rw [hcause]
        exact .problem _ (labelOf_eq_append _ _ _)
      · obtain ⟨before, value, after, hsplit, hbefore, hvalue⟩ := h
        rw [hsplit, ofValues_of_nameless hbefore hvalue]
        exact .breakdown (.name hload hsplit hbefore hvalue)

theorem parse_eq_breakdown_iff {text source : String} {cause : Breakdown} :
    parse text source = .error (.breakdown cause) ↔ ∃ fault, cause = .scalar fault ∧ Breaks text fault := by
  constructor
  · intro h
    have hparsed := parsed text source
    rw [h] at hparsed
    cases hparsed with
    | breakdown hbreaks => exact ⟨_, rfl, hbreaks⟩
  · rintro ⟨fault, rfl, hbreaks⟩
    exact parse_of_breaks hbreaks source

end Document

end Yang
