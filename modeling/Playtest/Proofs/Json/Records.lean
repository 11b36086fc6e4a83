import Playtest.Proofs.Json.Values
import Playtest.Proofs.Number.Narrowing

/-!
# Reading what was written

How decoders read the nodes of values, part by part: numbers, lists and alternatives (`Decoder`,
`Variant`), and structures whose fields are written by name (`Record`). And the other way around:
what has been read came from its parts.

A structure is read field by field, so both directions go along the fields of its record:
`Record.read_map`, `Record.read_seq` and `Record.read_named` put a structure together,
`Record.of_read_map`, `Record.of_read_seq` and `Record.of_read_named` take it apart.
-/

namespace Playtest.Json

variable {α β : Type} {s : Source} {n : Node} {a : α}

namespace Decoder

variable {d : Decoder α} {b : β}

/-! ### Scalars -/

/-- A value comes back from its node if its fields are in the order of the keys. -/
theorem value_ofValue {v : Value} (h : v.sorted = v) : value s (Node.ofValue v) = .ok v := by
  unfold value
  rw [Node.toValue_ofValue_of_sorted h]
  rfl

/-- A value that was read has its fields in that order. -/
theorem sorted_of_value {v : Value} (h : value s n = .ok v) : v.sorted = v :=
  Node.sorted_of_toValue n (Except.mapError_eq_ok_iff.mp h)

theorem integer_of_within {low high : Int} {expected : String} {i : Integer} (hlow : low ≤ i.val)
    (hhigh : i.val < high) : integer low high expected s (.int i) = .ok i.val :=
  if_pos ⟨hlow, hhigh⟩

theorem uint32_ofUInt32 (m : UInt32) : uint32 s (.int (.ofUInt32 m)) = .ok m := by
  have hread : integer 0 UInt32.size "u32" s (.int (.ofUInt32 m)) = .ok (m.toNat : Int) :=
    integer_of_within (Int.natCast_nonneg _) (Int.ofNat_lt.mpr m.toNat_lt)
  unfold uint32
  rw [hread]
  exact congrArg Except.ok (UInt32.ofNat_toNat ..)

theorem count_ofUInt64 (m : UInt64) : count s (.int (.ofUInt64 m)) = .ok m := by
  have hread : integer 0 UInt64.size "usize" s (.int (.ofUInt64 m)) = .ok (m.toNat : Int) :=
    integer_of_within (Int.natCast_nonneg _) (Int.ofNat_lt.mpr m.toNat_lt)
  unfold count
  rw [hread]
  exact congrArg Except.ok (UInt64.ofNat_toNat ..)

theorem uint64_ofUInt64 (m : UInt64) : uint64 s (.int (.ofUInt64 m)) = .ok m := by
  have hread : integer 0 UInt64.size "u64" s (.int (.ofUInt64 m)) = .ok (m.toNat : Int) :=
    integer_of_within (Int.natCast_nonneg _) (Int.ofNat_lt.mpr m.toNat_lt)
  unfold uint64
  rw [hread]
  exact congrArg Except.ok (UInt64.ofNat_toNat ..)

theorem int32_ofInt32 (m : Int32) : int32 s (.int (.ofInt32 m)) = .ok m := by
  have hread : integer Int32.minValue.toInt (Int32.maxValue.toInt + 1) "i32" s (.int (.ofInt32 m)) =
      .ok m.toInt :=
    integer_of_within m.le_toInt (Int.lt_add_one_of_le m.toInt_le)
  unfold int32
  rw [hread]
  exact congrArg Except.ok (Int32.ofInt_toInt ..)

theorem int64_ofInt64 (m : Int64) : int64 s (.int (.ofInt64 m)) = .ok m := by
  have hread : integer Int64.minValue.toInt (Int64.maxValue.toInt + 1) "i64" s (.int (.ofInt64 m)) =
      .ok m.toInt :=
    integer_of_within m.le_toInt (Int.lt_add_one_of_le m.toInt_le)
  unfold int64
  rw [hread]
  exact congrArg Except.ok (Int64.ofInt_toInt ..)

theorem float_ofFloat {x : Float} (h : x.isFinite = true) :
    float s (Node.ofValue (.ofFloat x)) = .ok x := by
  unfold Value.ofFloat
  rw [dif_pos h]
  rfl

/-- Whatever is read as a float is finite. -/
theorem isFinite_of_float {x : Float} (h : float s n = .ok x) : x.isFinite = true := by
  unfold float at h
  split at h
  · next i =>
    cases h
    exact Number.isFinite_doubleOfInt i.lower i.upper
  · next r =>
    cases h
    exact r.finite
  · -- anything else is no number
    unfold Node.unexpected at h
    split at h <;> cases h

/-- A float of 32 bits comes through the wider float that it is written as. -/
theorem single_ofSingle {x : Float32} (h : x.isFinite = true) :
    single s (Node.ofValue (.ofSingle x)) = .ok x := by
  unfold Value.ofSingle Value.ofFloat
  rw [dif_pos (Number.isFinite_widen h)]
  exact congrArg Except.ok (Number.narrow_widen h)

/-! ### Options, checks and lists -/

/-- What is not `null` is read as if the option were not there. -/
theorem option_ofValue {v : Value} (hv : v ≠ .null) (hd : d s (Node.ofValue v) = .ok a) :
    d.option s (Node.ofValue v) = .ok (some a) := by
  have hmap : d.option s (Node.ofValue v) = (d s (Node.ofValue v)).map some := by
    cases v with
    | null => exact absurd rfl hv
    | _ => rfl
  rw [hmap, hd]
  rfl

/-- An option comes back if nothing is written as `null` but what is missing. -/
theorem option_ofOption {write : α → Value} (o : Option α) (hwrite : ∀ a, write a ≠ .null)
    (hd : ∀ a, d s (Node.ofValue (write a)) = .ok a) :
      d.option s (Node.ofValue (.ofOption write o)) = .ok o := by
  cases o with
  | none => rfl
  | some a => exact option_ofValue (hwrite a) (hd a)

/-- A check behind a decoder lets through what both agree on. -/
theorem andThen_eq_ok_iff {check : α → Except String β} :
    d.andThen check s n = .ok b ↔ ∃ a, d s n = .ok a ∧ check a = .ok b := by
  unfold andThen
  rw [Except.bind_eq_ok_iff]
  simp only [Except.mapError_eq_ok_iff]

/-- A list comes back if all of its items do. -/
theorem list_ofItems {write : α → Value} {as : List α}
    (h : ∀ a ∈ as, d s (Node.ofValue (write a)) = .ok a) :
    d.list s (Node.ofValue (.arr (as.map write))) = .ok as := by
  -- the items are read one behind the other
  have hitems : d.items s (Node.ofItems (as.map write)) = .ok as := by
    induction as with
    | nil => rfl
    | cons a rest ih =>
      rw [List.forall_mem_cons] at h
      unfold List.map Node.ofItems items
      rw [h.1, ih h.2]
      rfl
  change (d.items s (Node.ofItems (as.map write)) >>= _) = _
  rw [hitems]
  rfl

/-- Items that were read stand among the nodes. -/
theorem of_items {ns : List Node} {as : List α} (h : d.items s ns = .ok as) :
    ∀ a ∈ as, ∃ n ∈ ns, d s n = .ok a := by
  induction ns generalizing as with
  | nil =>
    cases h
    exact fun a ha => nomatch ha
  | cons n ns ih =>
    -- the first one was read, and then the others
    obtain ⟨first, hfirst, h⟩ := Except.bind_eq_ok_iff.mp h
    obtain ⟨rest, hrest, h⟩ := Except.bind_eq_ok_iff.mp h
    cases h
    refine List.forall_mem_cons.mpr ⟨⟨n, List.mem_cons_self, hfirst⟩, fun a ha => ?_⟩
    obtain ⟨m, hm, hd⟩ := ih hrest a ha
    exact ⟨m, List.mem_cons_of_mem _ hm, hd⟩

/-- The items of a list that was read stand in it. -/
theorem of_list_arr {nodes : List Node} {unfinished : Option Ending} {as : List α}
    (h : d.list s (.arr nodes unfinished) = .ok as) : ∀ a ∈ as, ∃ n ∈ nodes, d s n = .ok a := by
  obtain ⟨as', hitems, h⟩ := Except.bind_eq_ok_iff.mp h
  split at h <;> cases h
  exact of_items hitems

/-- What is in a list has been read by itself. -/
theorem of_list {as : List α} (h : d.list s n = .ok as) : ∀ a ∈ as, ∃ n, d s n = .ok a := by
  cases n with
  | arr nodes unfinished =>
    intro a ha
    obtain ⟨n, -, hn⟩ := of_list_arr h a ha
    exact ⟨n, hn⟩
  | deep sequence unfinished => cases sequence <;> cases h
  | _ => cases h

end Decoder

namespace Variant

variable {forms : List (String × Variant α)} {name : String} {form : Variant α}

/-- A form with a payload or with fields is written as an object with its name as the only key. -/
theorem decoder_obj {node : Node} (hform : find forms name = .ok form)
    (hwithin : form.within s node = .ok a) :
    decoder forms s (.obj [(.ok name, node)] none) = .ok a := by
  cases s with
  | text =>
    change (find forms name >>= fun form => form.within .text node >>= fun a => .ok a) = _
    rw [hform]
    change (form.within .text node >>= fun a => .ok a) = _
    rw [hwithin]
    rfl
  | value =>
    change (find forms name >>= fun form => form.within .value node) = _
    rw [hform]
    exact hwithin

/-- The fields of a form are read as those of any other structure. -/
theorem within_fields {title : String} {r : Record α} {nodes : List (Except Fault String × Node)}
    {unfinished : Option Ending} :
    (Variant.fields title r).within s (.obj nodes unfinished) =
      r.decoder title false s (.obj nodes unfinished) := by
  cases s <;> rfl

/-- A form that is found by a name is one of the forms. -/
theorem mem_of_find (h : find forms name = .ok form) : ∃ f ∈ forms, f.2 = form := by
  unfold find at h
  split at h <;> cases h
  next f hf => exact ⟨f, List.mem_of_find?_eq_some hf, rfl⟩

/-- What has been read had one of the forms. -/
theorem of_decoder (h : decoder forms s n = .ok a) :
    ∃ form ∈ forms, form.2.bare = .ok a ∨ ∃ node, form.2.within s node = .ok a := by
  have hfound : ∀ {name : String} {form : Variant α}, find forms name = .ok form →
      (form.bare = .ok a ∨ ∃ node, form.within s node = .ok a) →
      ∃ form ∈ forms, form.2.bare = .ok a ∨ ∃ node, form.2.within s node = .ok a := by
    intro name form hform h
    obtain ⟨f, hf, rfl⟩ := mem_of_find hform
    exact ⟨f, hf, h⟩
  -- a bare name is a text, and everything else is an object with one key
  unfold decoder at h
  split at h
  · obtain ⟨form, hform, h⟩ := Except.bind_eq_ok_iff.mp h
    exact hfound hform (.inl h)
  · cases h
  · cases h
  · cases h
  · cases h
  · cases h
  · -- from a text the object is read to its end, and from a value it has to have one field
    split at h
    · split at h
      · cases h
      · next node rest =>
        obtain ⟨name, -, h⟩ := Except.bind_eq_ok_iff.mp h
        obtain ⟨form, hform, h⟩ := Except.bind_eq_ok_iff.mp h
        obtain ⟨a', ha, h⟩ := Except.bind_eq_ok_iff.mp h
        split at h <;> cases h
        exact hfound hform (.inr ⟨node, ha⟩)
    · split at h
      · next node =>
        obtain ⟨name, -, h⟩ := Except.bind_eq_ok_iff.mp h
        obtain ⟨form, hform, h⟩ := Except.bind_eq_ok_iff.mp h
        exact hfound hform (.inr ⟨node, h⟩)
      · cases h
  · split at h
    · cases h
    · unfold Node.unexpected at h
      split at h <;> cases h

end Variant

namespace Record

variable {offer : Offer} {r : Record α} {title : String} {strict : Bool} {name : String}
  {others : List String} {d : Decoder α} {absent : Absent α} {b : β}

/-! ### Structures -/

/-- **One field behind the others** is read if they are. -/
theorem read_seq {f : Record (α → β)} {x : Record α} {g : α → β} (hf : f.read offer = .ok g)
    (hx : x.read offer = .ok a) : (f <*> x).read offer = .ok (g a) := by
  change Reading.both (f.read offer) (x.read offer) = _
  rw [hf, hx]
  rfl

/-- And was read if the whole was. -/
theorem of_read_seq {f : Record (α → β)} {x : Record α} (h : (f <*> x).read offer = .ok b) :
    ∃ g a, f.read offer = .ok g ∧ x.read offer = .ok a ∧ g a = b := by
  change Reading.both (f.read offer) (x.read offer) = _ at h
  unfold Reading.both at h
  split at h
  · next g a hf hx =>
    cases h
    exact ⟨g, a, hf, hx, rfl⟩
  all_goals cases h

/-- What is made of a field is read if the field is. -/
theorem read_map {f : α → β} {x : Record α} (hx : x.read offer = .ok a) :
    (f <$> x).read offer = .ok (f a) := by
  change Reading.both (.ok f) (x.read offer) = _
  rw [hx]
  rfl

/-- And the field was read if that was. -/
theorem of_read_map {f : α → β} {x : Record α} (h : (f <$> x).read offer = .ok b) :
    ∃ a, x.read offer = .ok a ∧ f a = b := by
  change Reading.both (.ok f) (x.read offer) = _ at h
  unfold Reading.both at h
  split at h
  · next g a hf hx =>
    cases hf
    cases h
    exact ⟨a, hx, rfl⟩
  all_goals cases h

/-- A field that is offered is read from its node. -/
theorem read_named {place : Nat} {node : Node} (hfind : offer.find name = some (place, node))
    (hd : d offer.source node = .ok a) : (named name others d absent).read offer = .ok a := by
  unfold named
  dsimp only
  rw [hfind]
  dsimp only
  rw [hd]
  rfl

/-- A field that is not offered is filled in, if something stands in for it. -/
theorem read_absent (hfind : offer.find name = none) :
    (named name others d (.filled a)).read offer = .ok a := by
  unfold named
  dsimp only
  rw [hfind]

/-- A field that is left out of an object where nothing is there to be written. -/
theorem read_fieldMaybe {o : Option α} {write : α → Node}
    (hfind : (offer.find name).map (·.2) = o.map write)
    (hd : ∀ a ∈ o, d.option offer.source (write a) = .ok (some a)) :
      (fieldMaybe name d).read offer = .ok o := by
  cases o with
  | none => exact read_absent (Option.map_eq_none_iff.mp hfind)
  | some a =>
    obtain ⟨⟨place, node⟩, hnode, rfl⟩ := Option.map_eq_some_iff.mp hfind
    exact read_named hnode (hd a rfl)

/-- A field has been read, or something stood in for it. -/
theorem of_read_named (h : (named name others d absent).read offer = .ok a) :
    (∃ place node, offer.find name = some (place, node) ∧ d offer.source node = .ok a) ∨
      offer.find name = none ∧ (absent = .filled a ∨ absent = .filledByName a) := by
  unfold named at h
  dsimp only at h
  split at h
  · next place node hfind => exact .inl ⟨place, node, hfind, Except.mapError_eq_ok_iff.mp h⟩
  · next hfind =>
    refine .inr ⟨hfind, ?_⟩
    -- nothing was offered, so it depends on what stands in
    split at h
    · cases h
    · cases h
      exact .inl rfl
    · split at h <;> cases h
      exact .inr rfl

/-- A field that nothing stands in for was offered. -/
theorem of_read_field (h : (field name d).read offer = .ok a) :
    ∃ place node, offer.find name = some (place, node) ∧ d offer.source node = .ok a := by
  obtain hread | ⟨-, hfilled | hfilled⟩ := of_read_named h
  · exact hread
  · cases hfilled
  · cases hfilled

/-- An optional field that is not offered is missing. -/
theorem of_read_fieldMaybe {o : Option α} (h : (fieldMaybe name d).read offer = .ok o)
    (hfind : offer.find name = none) : o = none := by
  obtain ⟨place, node, hsome, -⟩ | ⟨-, hfilled | hfilled⟩ := of_read_named h
  · rw [hfind] at hsome
    cases hsome
  · cases hfilled
    rfl
  · cases hfilled

/-- A field with a default was offered, or is the default. -/
theorem of_read_fieldOr {default : α} (h : (fieldOr name d default).read offer = .ok a) :
    (∃ node, d offer.source node = .ok a) ∨ default = a := by
  obtain ⟨place, node, -, hd⟩ | ⟨-, hfilled | hfilled⟩ := of_read_named h
  · exact .inl ⟨node, hd⟩
  · cases hfilled
    exact .inr rfl
  · cases hfilled

/-- What is settled was read, and nothing was found against it. -/
theorem of_settle {reading : Reading α} {other : Option Finding}
    (h : settle reading other = .ok a) : reading = .ok a := by
  unfold settle at h
  split at h <;> cases h
  rfl

/-- What an object offers to a structure, given its fields that were met. -/
def offered (s : Source) (seen : List (String × Nat × Node)) (missing : String → Finding) :
    Offer where
  source := s
  positional := false
  find := fun name => (seen.find? fun entry => entry.1 == name).map (·.2)
  missing := missing

/-- **A structure is read from an object** if it is read from what the object offers. -/
theorem decoder_obj {nodes : List (Except Fault String × Node)} {seen : List (String × Nat × Node)}
    (hseen : scan r.names strict 0 [] nodes = (seen, none))
    (hread : ∀ missing, r.read (offered s seen missing) = .ok a) :
    r.decoder title strict s (.obj nodes none) = .ok a := by
  change r.ofFields strict s nodes none = _
  unfold ofFields
  rw [hseen]
  change settle (r.read (offered s seen _)) _ = _
  rw [hread]
  rfl

/-- What is met in an object stands in it, under one of the names of its field. -/
theorem of_mem_scan {names : List (List String)} {own : String} {place : Nat} {node : Node}
    {nodes : List (Except Fault String × Node)} {start : Nat} {seen : List (String × Nat × Node)}
    (h : (own, place, node) ∈ (scan names strict start seen nodes).1) :
    (own, place, node) ∈ seen ∨ ∃ key, (.ok key, node) ∈ nodes ∧ ownName? names key = some own := by
  -- on the fields of the object, whatever was met before them
  induction nodes generalizing start seen with
  | nil => exact .inl h
  | cons first rest ih =>
    obtain ⟨key, first⟩ := first
    have hlater : (∃ key, (.ok key, node) ∈ rest ∧ ownName? names key = some own) →
        ∃ k, (.ok k, node) ∈ (key, first) :: rest ∧ ownName? names k = some own :=
      fun ⟨k, hk, hown⟩ => ⟨k, .tail _ hk, hown⟩
    cases key with
    | error fault => exact .inl h
    | ok key =>
      unfold scan at h
      -- a field of another name is left out, and one that was met before ends the search
      split at h
      · next hown =>
        split at h
        · exact .inl h
        · obtain hseen | hrest := ih h
          · obtain heq | hseen := List.mem_cons.mp hseen
            · cases heq
              exact .inr ⟨key, .head _, hown⟩
            · exact .inl hseen
          · exact .inr (hlater hrest)
      · split at h
        · exact .inl h
        · split at h
          · exact .inl h
          · exact (ih h).imp_right hlater

/-- A structure has been read from an object, whose fields are all that it was offered. -/
theorem of_decoder_obj {nodes : List (Except Fault String × Node)} {unfinished : Option Ending}
    (h : r.decoder title strict s (.obj nodes unfinished) = .ok a) :
    ∃ offer : Offer, offer.source = s ∧ r.read offer = .ok a ∧
      ∀ name place node, offer.find name = some (place, node) →
        ∃ key, (.ok key, node) ∈ nodes ∧ ownName? r.names key = some name := by
  refine ⟨_, rfl, of_settle h, fun name place node hfind => ?_⟩
  obtain ⟨entry, hentry, heq⟩ := Option.map_eq_some_iff.mp hfind
  have hname : (entry.1 == name) = true :=
    List.find?_some (p := fun entry : String × Nat × Node => entry.1 == name) hentry
  obtain ⟨own, place', node'⟩ := entry
  obtain rfl : own = name := beq_iff_eq.mp hname
  cases heq
  -- it was not met before the first field, so it stands in the object
  obtain hseen | hmet := of_mem_scan (List.mem_of_find?_eq_some hentry)
  · cases hseen
  · exact hmet

/-- A structure has been read from what something offered. -/
theorem of_decoder (h : r.decoder title strict s n = .ok a) :
    ∃ offer : Offer, offer.source = s ∧ r.read offer = .ok a := by
  unfold decoder at h
  split at h
  · exact ⟨_, rfl, of_settle h⟩
  · exact ⟨_, rfl, of_settle h⟩
  · cases h
  · unfold Node.unexpected at h
    split at h <;> cases h

end Record

/-- A form with fields was read from what something offered. -/
theorem Variant.of_within_fields {title : String} {r : Record α}
    (h : (Variant.fields title r).within s n = .ok a) :
    ∃ offer : Offer, offer.source = s ∧ r.read offer = .ok a := by
  dsimp only [within] at h
  split at h
  · exact ⟨_, rfl, Record.of_settle h⟩
  · unfold Node.unexpected at h
    split at h <;> cases h
  · exact Record.of_decoder h

end Playtest.Json
