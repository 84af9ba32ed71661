import Ridehail.Json.Decoder

/-!
# Reading a record that was written

A record is written as an object with one member for each of its fields.  Such
an object is read in two passes: every member is checked as it is met, and then
the value is built from all of them.  `RecordDecoder.Reads` says at once that a
record passes both with a value, and it follows the way in which decoders are
put together, so what has to be shown of a record is what has to be shown of
each of its fields.

## Main results

* `RecordDecoder.Reads.seq`, `reads_required`, `reads_optional` — the parts of a
  record.
* `RecordDecoder.decode_of_reads` — an object with all fields is read.
* `RecordDecoder.decode_ne_ok` — one with a field that is not as it should be is
  not.
-/

namespace Ridehail

namespace Decoder

variable {α : Type}

theorem int64_of_le {n : Int} (h : Double.int64Min ≤ n ∧ n ≤ Double.int64Max) :
    int64 (.int n) = .ok n := by
  simp [int64, h]

theorem choice_name {ofName? : String → Option α} {name : String} {a : α}
    (h : ofName? name = some a) : choice ofName? (.string name) = .ok a := by
  rw [choice, h]

theorem parsed_string {read? : String → Option α} {text : String} {a : α}
    (h : read? text = some a) : parsed read? (.string text) = .ok a := by
  simp [parsed, Decoder.text, h, bind, Except.bind, pure, Except.pure]

/-- A value that is read from something else than `null` is there. -/
theorem nullable_of_ok {decode : Decoder α} {d : Document} {a : α}
    (h : decode d = .ok a) (hnull : decode .null ≠ .ok a) :
    nullable decode d = .ok (some a) := by
  unfold nullable
  split
  · exact absurd h hnull
  · rw [h]
    rfl

/-- An optional value is read from what it is written as. -/
theorem nullable_ofOption {decode : Decoder α} {encode : α → Json}
    {found : Option α}
    (h : ∀ a ∈ found, decode (Document.ofJson (encode a)) = .ok a)
    (hnull : ∀ a, decode .null ≠ .ok a) :
    nullable decode (Document.ofJson (.ofOption encode found)) = .ok found := by
  cases found with
  | none => rfl
  | some a => exact nullable_of_ok (h a rfl) (hnull a)

end Decoder

namespace RecordDecoder

variable {α β : Type} {members : List (String × Document)}

/-- The record is read as the value from the members: it is built from them, and
there is a member for each field that passes the check. -/
structure Reads (r : RecordDecoder α) (members : List (String × Document))
    (a : α) : Prop where
  build : r.build members = .ok a
  checks : ∀ field ∈ r.fields,
    ∃ d, members.lookup field.name = some d ∧ field.check d = .ok ()

theorem Reads.seq {f : RecordDecoder (α → β)} {x : RecordDecoder α} {g : α → β}
    {a : α} (hf : f.Reads members g) (hx : x.Reads members a) :
    (f <*> x).Reads members (g a) where
  build := by
    show (do
      let g ← f.build members
      let a ← x.build members
      return g a) = Except.ok (g a)
    rw [hf.build, hx.build]
    rfl
  checks field hfield := by
    rcases List.mem_append.1 hfield with h | h
    · exact hf.checks field h
    · exact hx.checks field h

theorem Reads.map {x : RecordDecoder α} (g : α → β) {a : α}
    (hx : x.Reads members a) :
    (g <$> x).Reads members (g a) := by
  have hpure : (pure g : RecordDecoder (α → β)).Reads members g :=
    ⟨rfl, fun field hfield => by cases hfield⟩
  exact hpure.seq hx

/-- A field is read from its member. -/
theorem reads_required {name : String} {decode : Decoder α} {d : Document}
    {a : α} (hd : members.lookup name = some d) (h : decode d = .ok a) :
    (required name decode).Reads members a where
  build := by
    simp only [required, hd, h]
  checks field hfield := by
    obtain rfl := List.mem_singleton.1 hfield
    refine ⟨d, hd, ?_⟩
    dsimp only
    rw [h]
    rfl

theorem reads_optional {name : String} {decode : Decoder α} {d : Document}
    {a : Option α} (hd : members.lookup name = some d)
    (h : Decoder.nullable decode d = .ok a) :
    (RecordDecoder.optional name decode).Reads members a where
  build := by
    simp only [optional, hd, h]
  checks field hfield := by
    obtain rfl := List.mem_singleton.1 hfield
    refine ⟨d, hd, ?_⟩
    dsimp only
    rw [h]
    rfl

/-! ## Whole objects -/

theorem lookup_of_mem {key : String} {value : Document}
    (hmem : (key, value) ∈ members) (hkeys : (members.map Prod.fst).Nodup) :
    members.lookup key = some value := by
  induction members with
  | nil => cases hmem
  | cons member rest ih =>
      obtain ⟨other, found⟩ := member
      rw [List.map_cons, List.nodup_cons] at hkeys
      rcases List.mem_cons.1 hmem with h | h
      · obtain ⟨rfl, rfl⟩ := Prod.mk.inj h
        exact List.lookup_cons_self
      · have hne : key ≠ other := by
          intro hsame
          exact hkeys.1 (List.mem_map.2 ⟨(key, value), h, hsame⟩)
        rw [List.lookup_cons, beq_eq_false_iff_ne.2 hne]
        exact ih h hkeys.2

theorem lookup_eq_none_of_not_mem {key : String}
    (h : key ∉ members.map Prod.fst) :
    members.lookup key = none := by
  rw [List.lookup_eq_none_iff]
  intro member hmem
  rw [bne_iff_ne]
  intro hsame
  exact h (List.mem_map.2 ⟨member, hmem, hsame.symm⟩)

/-- Members of different names that all pass the check of their field are
found. -/
theorem checkMembers_of_checks {fields : List RecordField}
    {seen : List (String × Document)}
    (hkeys : ((seen ++ members).map Prod.fst).Nodup)
    (hchecks : ∀ key value, (key, value) ∈ members →
      ∃ field ∈ fields, field.name = key ∧
      ∀ other ∈ fields, other.name = key → other.check value = .ok ()) :
    checkMembers fields seen members = .ok (seen ++ members) := by
  induction members generalizing seen with
  | nil => rw [checkMembers, List.append_nil]
  | cons member rest ih =>
      obtain ⟨key, value⟩ := member
      obtain ⟨field, hfield, hname, hcheck⟩ :=
        hchecks key value List.mem_cons_self
      obtain ⟨found, hfound⟩ : ∃ found,
          fields.find? (fun field => field.name = key) = some found :=
        Option.isSome_iff_exists.1
          (List.find?_isSome.2 ⟨field, hfield, by simp [hname]⟩)
      have hnew : key ∉ seen.map Prod.fst := by
        rw [List.map_append, List.map_cons, List.nodup_append] at hkeys
        exact fun hmem => hkeys.2.2 key hmem key List.mem_cons_self rfl
      have hpassed : found.check value = .ok () :=
        hcheck found (List.mem_of_find?_eq_some hfound)
          (by simpa using List.find?_some hfound)
      rw [checkMembers, hfound]
      dsimp only
      rw [lookup_eq_none_of_not_mem hnew, if_neg (by simp), hpassed]
      have hsplit : seen ++ (key, value) :: rest =
          seen ++ [(key, value)] ++ rest := by simp
      rw [hsplit] at hkeys ⊢
      exact ih hkeys fun key' value' hmem =>
        hchecks key' value' (List.mem_cons_of_mem _ hmem)

/-- An object with all the fields of a record, each of them once, is read. -/
theorem decode_of_reads {r : RecordDecoder α} {a : α} (h : r.Reads members a)
    (hnames : members.map Prod.fst = r.fields.map (·.name))
    (hkeys : (members.map Prod.fst).Nodup) :
    r.decode (.object members true) = .ok a := by
  have hfound : checkMembers r.fields [] members = .ok members := by
    refine checkMembers_of_checks hkeys fun key value hmem => ?_
    have hkey : key ∈ r.fields.map (·.name) := hnames ▸ List.mem_map_of_mem hmem
    obtain ⟨field, hfield, hname⟩ := List.mem_map.1 hkey
    refine ⟨field, hfield, hname, fun other hother hsame => ?_⟩
    obtain ⟨d, hd, hcheck⟩ := h.checks other hother
    rw [hsame, lookup_of_mem hmem hkeys] at hd
    cases hd
    exact hcheck
  rw [decode, hfound]
  exact h.build

theorem checkMembers_ne_ok {fields : List RecordField}
    {seen found : List (String × Document)} {key : String} {value : Document}
    {field : RecordField} {e : Refusal} (hmem : (key, value) ∈ members)
    (hfield : fields.find? (fun field => field.name = key) = some field)
    (hcheck : field.check value = .error e) :
    checkMembers fields seen members ≠ .ok found := by
  induction members generalizing seen with
  | nil => cases hmem
  | cons member rest ih =>
      obtain ⟨other, d⟩ := member
      rw [checkMembers]
      rcases List.mem_cons.1 hmem with h | h
      · obtain ⟨rfl, rfl⟩ := Prod.mk.inj h
        rw [hfield]
        dsimp only
        rw [hcheck]
        split <;> exact fun h => by cases h
      · cases fields.find? (fun field => field.name = other) with
        | none =>
            dsimp only
            split
            · exact ih h
            · exact fun h => by cases h
        | some known =>
            dsimp only
            split
            · exact fun h => by cases h
            · cases known.check d with
              | error e => exact fun h => by cases h
              | ok u => exact ih h

/-- An object with a field that does not pass its check is not read. -/
theorem decode_ne_ok {r : RecordDecoder α} {a : α} {key : String}
    {value : Document} {field : RecordField} {e : Refusal}
    (hmem : (key, value) ∈ members)
    (hfield : r.fields.find? (fun field => field.name = key) = some field)
    (hcheck : field.check value = .error e) :
    r.decode (.object members true) ≠ .ok a := by
  intro h
  cases hfound : checkMembers r.fields [] members with
  | error e =>
      rw [decode, hfound] at h
      cases h
  | ok found => exact checkMembers_ne_ok hmem hfield hcheck hfound

end RecordDecoder

end Ridehail
