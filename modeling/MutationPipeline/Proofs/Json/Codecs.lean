import Mathlib.Data.List.Nodup
import MutationPipeline.Json.Tagged
import MutationPipeline.Proofs.Json.Reading
import MutationPipeline.Proofs.Text.Lines

/-! Codecs that read what they write, and how they are put together: a list, an optional value, a
record and a variant with a tag read what they write when their parts do. -/
namespace MutationPipeline.Json

namespace Codec

structure Lawful (c : Codec α) (room : Nat) : Prop where
  plain : ∀ x, (c.write x).plain room = true
  reads : ∀ origin x, c.read origin (c.write x) = .ok x

theorem textLawful {room : Nat} : text.Lawful room := ⟨fun _ => rfl, fun _ _ => rfl⟩

theorem flagLawful {room : Nat} : flag.Lawful room := ⟨fun _ => rfl, fun _ _ => rfl⟩

theorem word32Lawful {room : Nat} : word32.Lawful room where
  plain n := decide_eq_true (Nat.lt_trans n.toNat_lt (by decide : 2 ^ 32 < 2 ^ 64))
  reads origin n := by
    have fits : n.toNat < Nat.pow 2 32 := n.toNat_lt
    simp only [word32, ofNat, if_pos fits, UInt32.ofNat_toNat]

theorem Lawful.option {c : Codec α} {room : Nat} (law : c.Lawful room)
    (present : ∀ x, c.write x ≠ .null) : c.option.Lawful room where
  plain
    | none => rfl
    | some x => law.plain x
  reads origin
    | none => rfl
    | some x => by
      simp only [Codec.option, ofOption]
      split
      · next absent => exact absurd absent (present x)
      · rw [law.reads, Except.map]

theorem plainItemsIff {room : Nat} {items : List Json} :
    plainItems room items = true ↔ ∀ item ∈ items, item.plain room = true := by
  induction items with
  | nil => simp [plainItems]
  | cons item items ih => simp [plainItems, ih]

theorem plainMembersIff {room : Nat} {members : List (String × Json)} :
    plainMembers room (members.map fun m => (some m.1, m.2)) = true ↔
      ∀ m ∈ members, m.2.plain room = true := by
  induction members with
  | nil => simp [plainMembers]
  | cons m members ih => simp [plainMembers, ih]

theorem plainOfMembers {room : Nat} {members : List (String × Json)}
    (each : ∀ m ∈ members, m.2.plain room = true) :
    (ofMembers members).plain (room + 1) = true := by
  simp [ofMembers, Json.plain, plainMembersIff.mpr each]

theorem mapMReads {c : Codec α} {room : Nat} (law : c.Lawful room) (origin : Origin)
    (xs : List α) : (xs.map c.write).mapM (c.read origin) = .ok xs := by
  induction xs with
  | nil => rfl
  | cons x xs ih => simp only [List.map_cons, List.mapM_cons, law.reads, ih]; rfl

theorem Lawful.list {c : Codec α} {room : Nat} (law : c.Lawful room) :
    c.list.Lawful (room + 1) where
  plain xs := by
    have each : plainItems room (xs.map c.write) = true :=
      plainItemsIff.mpr (List.forall_mem_map.mpr fun x _ => law.plain x)
    simp [Codec.list, ofList, Json.plain, each]
  reads origin xs := by
    simp only [Codec.list, ofList, mapMReads law]
    rfl

theorem oneOfLawful {variants : List (String × α)} {name : α → String} {room : Nat}
    (found : ∀ x, variants.lookup (name x) = some x) : (oneOf variants name).Lawful room where
  plain _ := rfl
  reads origin x := by simp only [oneOf, ofText, variant, found x]

theorem Lawful.readKeyed {c : Codec α} {room : Nat} (law : c.Lawful room) (origin : Origin)
    {xs : Keyed α} {entries : List (String × α)} (same : entries.Perm xs.entries) :
    c.keyed.read origin (ofMembers (entries.map fun e => (e.1, c.write e.2))) = .ok xs := by
  have each (es : List (String × α)) :
      ((es.map fun e => (e.1, c.write e.2)).map fun m => (some m.1, m.2)).mapM
        (c.readEntry origin) = .ok es := by
    induction es with
    | nil => rfl
    | cons e es ih =>
      simp only [List.map_cons, List.mapM_cons, ih]
      simp only [Codec.readEntry, law.reads]
      rfl
  simp only [Codec.keyed, ofMembers, each]
  exact congrArg Except.ok (Keyed.ofListPerm same)

theorem Lawful.keyed {c : Codec α} {room : Nat} (law : c.Lawful room) :
    c.keyed.Lawful (room + 1) where
  plain _ := plainOfMembers (List.forall_mem_map.mpr fun e _ => law.plain e.2)
  reads origin _ := law.readKeyed origin (.refl _)

end Codec

namespace Record

structure Lawful (r : Record σ α) (room : Nat) (make : σ → α) : Prop where
  names : ∀ s, (r.members s).map (·.1) = r.fields.map (·.name)
  apart : (r.fields.map (·.name)).Nodup
  plain : ∀ s, ∀ m ∈ r.members s, m.2.plain room = true
  checks : ∀ origin s, ∀ m ∈ r.members s, ∀ f ∈ r.fields, f.name = m.1 →
    f.check origin m.2 = .ok ()
  builds : ∀ origin s found, (∀ m ∈ r.members s, found m.1 = some m.2) →
    r.build origin found = .ok (make s)

theorem startLawful {make : α} {room : Nat} :
    (start make : Record σ α).Lawful room fun _ => make where
  names _ := rfl
  apart := .nil
  plain _ _ none := nomatch none
  checks _ _ _ none := nomatch none
  builds _ _ _ _ := rfl

theorem Lawful.field {r : Record σ (β → α)} {room : Nat} {make : σ → β → α}
    (law : r.Lawful room make) {c : Codec β} (part : c.Lawful room) {name : String}
    {value : σ → β} {omissible : Bool} {absent : Except Complaint β}
    (fresh : name ∉ r.fields.map (·.name)) :
    (r.field name c value omissible absent).Lawful room fun s => make s (value s) where
  names s := by simp [Record.field, law.names s]
  apart := by
    simp only [Record.field, List.map_append, List.map_cons, List.map_nil]
    exact List.nodup_append.mpr ⟨law.apart, by simp, by simpa using fresh⟩
  plain s m member := by
    rcases List.mem_append.mp member with old | new
    · exact law.plain s m old
    · rw [List.mem_singleton.mp new]
      exact part.plain (value s)
  checks origin s m member f field same := by
    rcases List.mem_append.mp member with old | new <;>
      rcases List.mem_append.mp field with known | added
    · exact law.checks origin s m old f known same
    · have here : m.1 ∈ r.fields.map (·.name) := law.names s ▸ List.mem_map_of_mem old
      rw [List.mem_singleton.mp added] at same
      rw [← same] at here
      exact absurd here fresh
    · have here : f.name ∈ r.fields.map (·.name) := List.mem_map_of_mem known
      rw [List.mem_singleton.mp new] at same
      rw [same] at here
      exact absurd here fresh
    · rw [List.mem_singleton.mp new, List.mem_singleton.mp added]
      simp only [part.reads, Except.map]
  builds origin s found each := by
    have front := law.builds origin s found fun m member =>
      each m (List.mem_append_left _ member)
    have last : found name = some (c.write (value s)) :=
      each (name, c.write (value s)) (List.mem_append_right _ List.mem_cons_self)
    simp only [Record.field, front, last]
    simp only [bind, Except.bind, part.reads]

theorem fieldNamed {fields : List Field} {name : String} (known : name ∈ fields.map (·.name)) :
    ∃ f ∈ fields, f.name = name ∧ field? fields name = some f := by
  cases found : field? fields name with
  | none =>
    obtain ⟨f, member, same⟩ := List.mem_map.mp known
    exact absurd (decide_eq_true same) (List.find?_eq_none.mp found f member)
  | some f =>
    exact ⟨f, List.mem_of_find?_eq_some found, of_decide_eq_true (List.find?_some found :), rfl⟩

theorem checkMembersAll {fields : List Field} {origin : Origin} {members : List (String × Json)}
    {met : List String} (apart : (members.map (·.1)).Nodup)
    (new : ∀ m ∈ members, m.1 ∉ met) (known : ∀ m ∈ members, m.1 ∈ fields.map (·.name))
    (checks : ∀ m ∈ members, ∀ f ∈ fields, f.name = m.1 → f.check origin m.2 = .ok ()) :
    checkMembers fields origin met (members.map fun m => (some m.1, m.2)) = .ok () := by
  induction members generalizing met with
  | nil => rfl
  | cons m members ih =>
    obtain ⟨f, field, same, found⟩ := fieldNamed (known m List.mem_cons_self)
    obtain ⟨lone, apart⟩ := List.nodup_cons.mp apart
    have later : checkMembers fields origin (m.1 :: met)
        (members.map fun m => (some m.1, m.2)) = .ok () := by
      refine ih apart (fun d member => ?_)
        (fun d member => known d (List.mem_cons_of_mem m member))
        (fun d member => checks d (List.mem_cons_of_mem m member))
      rintro met
      rcases List.mem_cons.mp met with again | earlier
      · exact lone (List.mem_map.mpr ⟨d, member, again⟩)
      · exact new d (List.mem_cons_of_mem m member) earlier
    simp only [List.map_cons, checkMembers, found, if_neg (new m List.mem_cons_self),
      checks m List.mem_cons_self f field same, later]
    rfl

theorem memberNamedOf {members : List (String × Json)} (apart : (members.map (·.1)).Nodup)
    {m : String × Json} (member : m ∈ members) :
    memberNamed (members.map fun m => (some m.1, m.2)) m.1 = some m.2 := by
  induction members with
  | nil => cases member
  | cons d members ih =>
    obtain ⟨lone, apart⟩ := List.nodup_cons.mp apart
    simp only [memberNamed, List.map_cons, List.lookup_cons]
    rcases List.mem_cons.mp member with rfl | later
    · simp
    · have differs : m.1 ≠ d.1 := fun same => lone (List.mem_map.mpr ⟨m, later, same⟩)
      have other : (some m.1 == some d.1) = false := beq_false_of_ne (by simpa using differs)
      rw [other]
      exact ih apart later

theorem Lawful.readMembers {r : Record σ α} {room : Nat} {make : σ → α}
    (law : r.Lawful room make) (origin : Origin) (s : σ) :
    r.readMembers origin ((r.members s).map fun m => (some m.1, m.2)) true = .ok (make s) := by
  have apart : ((r.members s).map (·.1)).Nodup := law.names s ▸ law.apart
  have checked : checkMembers r.fields origin []
      ((r.members s).map fun m => (some m.1, m.2)) = .ok () :=
    checkMembersAll apart (fun _ _ => List.not_mem_nil)
      (fun m member => law.names s ▸ List.mem_map_of_mem member) (law.checks origin s)
  have built := law.builds origin s
    (memberNamed ((r.members s).map fun m => (some m.1, m.2)))
    fun m member => memberNamedOf apart member
  simp only [Record.readMembers, checked, built]
  rfl

theorem Lawful.codec {r : Record α α} {room : Nat} (law : r.Lawful room fun x => x) :
    r.codec.Lawful (room + 1) where
  plain x := Codec.plainOfMembers (law.plain x)
  reads origin x := law.readMembers origin x

end Record

namespace Tagged

theorem gatherOthers {t : Tagged α} {content : Option (Content α)}
    {members : List (String × Json)} (free : ∀ m ∈ members, m.1 ≠ t.tag)
    (held : ∀ m ∈ members, m.2.plain heldRoom = true) :
    t.gather content (members.map fun m => (some m.1, m.2)) =
      .ok (content, members.map fun m => (some m.1, m.2)) := by
  induction members with
  | nil => rfl
  | cons m members ih =>
    have later := ih (fun d member => free d (List.mem_cons_of_mem m member))
      (fun d member => held d (List.mem_cons_of_mem m member))
    simp only [List.map_cons, gather, if_neg (free m List.mem_cons_self),
      keepableOfPlain (held m List.mem_cons_self), later]
    rfl

theorem readDocument {t : Tagged α} {name : String} {c : Content α}
    {members : List (String × Json)} (variant : t.variants.lookup name = some c)
    (free : ∀ m ∈ members, m.1 ≠ t.tag) (held : ∀ m ∈ members, m.2.plain heldRoom = true) :
    t.read (document t.tag name members) =
      c.ofMembers (members.map fun m => (some m.1, m.2)) := by
  have chosen : t.named (ofText name) = .ok c := by
    simp only [Tagged.named, ofText, Codec.variant, variant]
  have gathered : t.gather (some c) (members.map fun m => (some m.1, m.2)) =
      .ok (some c, members.map fun m => (some m.1, m.2)) := gatherOthers free held
  simp only [document, ofMembers, List.map_cons, Tagged.read, Tagged.readMembers, gather, if_pos,
    Option.isSome_none, Bool.false_eq_true, if_false, chosen]
  simp only [bind, Except.bind, gathered, Bool.not_true, Bool.false_eq_true, if_false]

theorem documentPlain {tag name : String} {members : List (String × Json)}
    (held : ∀ m ∈ members, m.2.plain heldRoom = true) :
    (document tag name members).plain (heldRoom + 1) = true := by
  refine Codec.plainOfMembers fun m member => ?_
  rcases List.mem_cons.mp member with rfl | later
  · rfl
  · exact held m later

theorem documentReads {t : Tagged α} {name : String} {r : Record σ α} {make : σ → α}
    (law : r.Lawful heldRoom make) (variant : t.variants.lookup name = some (.record r))
    (free : t.tag ∉ r.fields.map (·.name)) (s : σ) :
    t.read (document t.tag name (r.members s)) = .ok (make s) ∧
      (document t.tag name (r.members s)).plain (heldRoom + 1) = true := by
  have apart : ∀ m ∈ r.members s, m.1 ≠ t.tag := by
    intro m member same
    have known : m.1 ∈ (r.members s).map (·.1) := List.mem_map_of_mem member
    rw [law.names s, same] at known
    exact free known
  have read := readDocument variant apart (law.plain s)
  exact ⟨read.trans (law.readMembers .held s), documentPlain (law.plain s)⟩

end Tagged

namespace Codec

theorem parseCompact {c : Codec α} {room : Nat} {j : Json} {x : α} (plain : j.plain room = true)
    (reads : c.read .text j = .ok x) : c.parse j.compact = .ok x := by
  simp only [parse, readCompact plain, reads]
  rfl

theorem compactSolid {room : Nat} {j : Json} (plain : j.plain room = true) :
    Text.Solid j.compact := by
  intro d member
  rw [compact, String.toList_ofList] at member
  exact solidChars j plain d member

namespace Lawful

variable {c : Codec α} {room : Nat}

theorem parsePrint (law : c.Lawful room) (x : α) : c.parse (c.print x) = .ok x :=
  parseCompact (law.plain x) (law.reads .text x)

theorem printSolid (law : c.Lawful room) (x : α) : Text.Solid (c.print x) :=
  compactSolid (law.plain x)

end Lawful

end Codec

end MutationPipeline.Json
