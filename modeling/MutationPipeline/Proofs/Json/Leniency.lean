import Mathlib
import MutationPipeline.Proofs.Json.Codecs

/-!
What does not matter in an object. Its members may stand in any order, members that nobody asks for
may stand among them, and a field that has a default may be written with it or be left out. Only
which complaint is made first may depend on it, not whether there is one.

A member that nobody asks for has to be well written, and where members are held back it has to be
fit to be kept.
-/
namespace MutationPipeline.Json

abbrev Members := List (Option String × Json)

def Members.Apart (members : Members) : Prop := (members.map (·.1)).Nodup

def Agree (first second : Except Complaint α) : Prop := ∀ x, first = .ok x ↔ second = .ok x

/-- What a field is taken to be when it is not met. -/
structure Default where
  {α : Type}
  name : String
  codec : Codec α
  value : α

namespace Default

def Stands (d : Default) (j : Json) : Prop := ∀ origin, d.codec.read origin j = .ok d.value

def written (d : Default) : Json := d.codec.write d.value

end Default

/-- A reader of members to which order, members without meaning and written defaults do not matter.
`fit` says what members without meaning have to be. -/
structure Lenient (fit : Json → Bool) (fields : List String) (defaults : List Default)
    (read : Members → Except Complaint α) : Prop where
  reordered : ∀ {members others : Members}, members.Apart → members.Perm others →
    Agree (read members) (read others)
  extended : ∀ {members extra : Members}, Members.Apart (members ++ extra) →
    (∀ m ∈ extra, ∃ key, m.1 = some key ∧ key ∉ fields ∧ fit m.2 = true) →
    Agree (read (members ++ extra)) (read members)
  omitted : ∀ {members : Members} {d : Default} {j : Json}, d ∈ defaults → d.Stands j →
    fit j = true → Members.Apart ((some d.name, j) :: members) →
    Agree (read ((some d.name, j) :: members)) (read members)

section Members
variable {members others : Members} {name : String} {j : Json}

theorem memberNamedIff (apart : members.Apart) :
    Record.memberNamed members name = some j ↔ (some name, j) ∈ members := by
  induction members with
  | nil => simp [Record.memberNamed]
  | cons m rest ih =>
    obtain ⟨key, value⟩ := m
    obtain ⟨lone, apart⟩ := List.nodup_cons.mp apart
    have ih := ih apart
    rw [Record.memberNamed] at ih ⊢
    rw [List.lookup_cons, List.mem_cons, Prod.mk.injEq]
    by_cases same : some name = key
    · subst same
      have no : (some name, j) ∉ rest := fun member => lone (List.mem_map.mpr ⟨_, member, rfl⟩)
      simp [no, eq_comm]
    · rw [beq_false_of_ne same]
      simpa [same] using ih

theorem Members.Apart.perm (apart : members.Apart) (same : members.Perm others) : others.Apart :=
  (same.map _).nodup_iff.mp apart

theorem Members.Apart.sublist (apart : members.Apart) (fewer : others.Sublist members) :
    others.Apart :=
  List.Nodup.sublist (fewer.map _) apart

theorem memberNamedPerm (apart : members.Apart) (same : members.Perm others) :
    Record.memberNamed members = Record.memberNamed others := by
  funext name
  refine Option.ext fun j => ?_
  exact (memberNamedIff apart).trans
    (same.mem_iff.trans (memberNamedIff (apart.perm same)).symm)

theorem memberNamedNone (absent : some name ∉ members.map (·.1)) :
    Record.memberNamed members name = none := by
  refine List.lookup_eq_none_iff.mpr fun m member => bne_iff_ne.mpr fun same => ?_
  exact absent (List.mem_map.mpr ⟨m, member, same.symm⟩)

theorem memberNamedFront {extra : Members} (other : some name ∉ extra.map (·.1)) :
    Record.memberNamed (members ++ extra) name = Record.memberNamed members name := by
  have none := memberNamedNone other
  rw [Record.memberNamed] at none
  rw [Record.memberNamed, Record.memberNamed, List.lookup_append, none, Option.or_none]

theorem memberNamedOther {key : String} (other : name ≠ key) :
    Record.memberNamed ((some key, j) :: members) name = Record.memberNamed members name := by
  have differs : (some name == some key) = false := beq_false_of_ne (by simpa using other)
  rw [Record.memberNamed, List.lookup_cons, differs]
  rfl

end Members

namespace Lenient
variable {fit stricter : Json → Bool} {fields wider : List String} {defaults more : List Default}
  {read : Members → Except Complaint α}

theorem ofPasses {passes : Option String × Json → Prop} {result : Members → α → Prop}
    (reads : ∀ {members}, members.Apart → ∀ x,
      read members = .ok x ↔ (∀ m ∈ members, passes m) ∧ result members x)
    (same : ∀ {members others x}, members.Apart → members.Perm others →
      (result members x ↔ result others x))
    (free : ∀ {key j}, key ∉ fields → fit j = true → passes (some key, j))
    (unasked : ∀ {members extra x}, Members.Apart (members ++ extra) →
      (∀ m ∈ extra, ∃ key, m.1 = some key ∧ key ∉ fields ∧ fit m.2 = true) →
      (result (members ++ extra) x ↔ result members x))
    (taken : ∀ {d j}, d ∈ defaults → d.Stands j → fit j = true → passes (some d.name, j))
    (spared : ∀ {members d j x}, d ∈ defaults → d.Stands j → fit j = true →
      Members.Apart ((some d.name, j) :: members) →
      (result ((some d.name, j) :: members) x ↔ result members x)) :
    Lenient fit fields defaults read where
  reordered apart perm x := by
    rw [reads apart, reads (apart.perm perm), same apart perm]
    exact and_congr_left fun _ => forall_congr' fun m => imp_congr_left perm.mem_iff
  extended {members extra} apart meaningless x := by
    rw [reads apart, reads (apart.sublist (List.sublist_append_left _ _)),
      unasked apart meaningless]
    refine and_congr_left fun _ => List.forall_mem_append.trans (and_iff_left fun m member => ?_)
    obtain ⟨key, named, unknown, good⟩ := meaningless m member
    exact (Prod.ext named rfl : m = (some key, m.2)) ▸ free unknown good
  omitted {members d j} member stands good apart x := by
    rw [reads apart, reads (apart.sublist (List.sublist_cons_self _ _)),
      spared member stands good apart]
    exact and_congr_left fun _ =>
      List.forall_mem_cons.trans (and_iff_right (taken member stands good))

theorem constant (value : α) : Lenient fit fields defaults fun _ => .ok value :=
  ⟨fun _ _ _ => .rfl, fun _ _ _ => .rfl, fun _ _ _ _ _ => .rfl⟩

theorem widen (lenient : Lenient fit fields defaults read)
    (good : ∀ {j}, stricter j = true → fit j = true) (known : fields ⊆ wider)
    (own : ∀ d ∈ more, d ∈ defaults ∨ d.name ∉ fields) : Lenient stricter wider more read where
  reordered := lenient.reordered
  extended apart meaningless := lenient.extended apart fun m member =>
    let ⟨key, named, unknown, fits⟩ := meaningless m member
    ⟨key, named, fun here => unknown (known here), good fits⟩
  omitted {members d j} member stands fits apart x := by
    rcases own d member with mine | foreign
    · exact lenient.omitted mine stands (good fits) apart x
    · have behind : ((some d.name, j) :: members).Perm (members ++ [(some d.name, j)]) :=
        (List.perm_append_singleton _ _).symm
      refine (lenient.reordered apart behind x).trans (lenient.extended (apart.perm behind) ?_ x)
      exact List.forall_mem_singleton.mpr ⟨d.name, rfl, foreign, good fits⟩

end Lenient

theorem bindOkIff {first : Except Complaint α} {next : α → Except Complaint β} {y : β} :
    first >>= next = .ok y ↔ ∃ x, first = .ok x ∧ next x = .ok y := by
  cases first <;> simp [bind, Except.bind]

theorem bindKnown {first : Except Complaint α} {next : α → Except Complaint β} {holds : Prop} {x : α}
    {y : β} (known : ∀ z, first = .ok z ↔ holds ∧ z = x) :
    first >>= next = .ok y ↔ holds ∧ next x = .ok y := by
  rw [bindOkIff]
  constructor
  · rintro ⟨z, read, goes⟩
    obtain ⟨all, rfl⟩ := (known z).mp read
    exact ⟨all, goes⟩
  · rintro ⟨all, goes⟩
    exact ⟨x, (known x).mpr ⟨all, rfl⟩, goes⟩

theorem bindChecked {first : Except Complaint Unit} {next : Unit → Except Complaint β} {y : β} :
    first >>= next = .ok y ↔ first = .ok () ∧ next () = .ok y :=
  bindKnown fun _ => (and_iff_left rfl).symm

namespace Record

def Passes (fit : Json → Bool) (fields : List Field) (origin : Origin)
    (m : Option String × Json) : Prop :=
  ∃ key, m.1 = some key ∧ match field? fields key with
    | none => fit m.2 = true
    | some f => f.check origin m.2 = .ok ()

section Passes
variable {fit : Json → Bool} {fields : List Field} {origin : Origin} {key : String} {j : Json}

theorem fieldUnknown (unknown : key ∉ fields.map (·.name)) : field? fields key = none :=
  List.find?_eq_none.mpr fun f member named =>
    unknown (List.mem_map.mpr ⟨f, member, of_decide_eq_true named⟩)

theorem passesField {f : Field} (known : field? fields key = some f) :
    Passes fit fields origin (some key, j) ↔ f.check origin j = .ok () := by
  simp only [Passes, Option.some.injEq, exists_eq_left', known]

theorem passesOther (unknown : key ∉ fields.map (·.name)) :
    Passes fit fields origin (some key, j) ↔ fit j = true := by
  simp only [Passes, Option.some.injEq, exists_eq_left', fieldUnknown unknown]

end Passes

theorem checkMembersIff {fields : List Field} {origin : Origin} {members : Members}
    {met : List String} (apart : members.Apart) (new : ∀ key ∈ met, some key ∉ members.map (·.1)) :
    checkMembers fields origin met members = .ok () ↔
      ∀ m ∈ members, Passes intact fields origin m := by
  induction members generalizing met with
  | nil => simp [checkMembers]
  | cons m rest ih =>
    obtain ⟨key, j⟩ := m
    obtain ⟨lone, fewer⟩ := List.nodup_cons.mp apart
    rw [List.forall_mem_cons]
    cases key with
    | none => simp [checkMembers, Passes]
    | some key =>
      have later : ∀ k ∈ met, some k ∉ rest.map (·.1) := fun k member there =>
        new k member (List.mem_cons_of_mem _ there)
      have fresh : key ∉ met := fun member => new key member List.mem_cons_self
      rw [checkMembers]
      by_cases known : key ∈ fields.map (·.name)
      · obtain ⟨f, _, _, found⟩ := fieldNamed known
        have again : ∀ k ∈ key :: met, some k ∉ rest.map (·.1) :=
          List.forall_mem_cons.mpr ⟨lone, later⟩
        simp only [passesField found, found, fresh, if_false, bindChecked, ih fewer again]
      · simp only [passesOther known, fieldUnknown known, ← ih fewer later]
        by_cases good : j.intact = true
        · simp [good]
        · simp [good]

theorem readMembersIff (r : Record σ α) {origin : Origin} {complete : Bool} {members : Members}
    (apart : members.Apart) (x : α) :
    r.readMembers origin members complete = .ok x ↔ (∀ m ∈ members, Passes intact r.fields origin m) ∧
      complete = true ∧ r.build origin (memberNamed members) = .ok x := by
  rw [← @checkMembersIff r.fields origin members [] apart (by simp), readMembers]
  cases checkMembers r.fields origin [] members with
  | error e => simp [bind, Except.bind]
  | ok u => cases complete <;> simp [bind, Except.bind]

structure Regular (r : Record σ α) (defaults : List Default) : Prop where
  looks : ∀ {origin found seen}, (∀ name ∈ r.fields.map (·.name), found name = seen name) →
    r.build origin found = r.build origin seen
  known : ∀ d ∈ defaults, d.name ∈ r.fields.map (·.name)
  checks : ∀ d ∈ defaults, ∀ f ∈ r.fields, f.name = d.name → ∀ {origin j}, d.Stands j →
    f.check origin j = .ok ()
  spares : ∀ d ∈ defaults, ∀ {origin found seen j}, d.Stands j → found d.name = some j →
    seen d.name = none → (∀ name, name ≠ d.name → found name = seen name) →
    r.build origin found = r.build origin seen

theorem startRegular (make : α) : (start make : Record σ α).Regular [] where
  looks _ := rfl
  known _ none := nomatch none
  checks _ none := nomatch none
  spares _ none := nomatch none

section Field
variable {r : Record σ (β → α)} {defaults : List Default} {name : String} {c : Codec β}
  {part : σ → β} {omissible : Bool}

theorem fieldNames {absent : Except Complaint β} :
    (r.field name c part omissible absent).fields.map (·.name) = r.fields.map (·.name) ++ [name] := by
  simp [Record.field]

theorem fieldBuild {absent : Except Complaint β} {origin : Origin}
    {found : String → Option Json} :
    (r.field name c part omissible absent).build origin found = (do
      let make ← r.build origin found
      let x ← (found name).elim absent (c.read origin)
      .ok (make x)) := by
  simp only [Record.field]
  cases found name <;> rfl

theorem fieldBuilt {absent : Except Complaint β} {origin : Origin}
    {found seen : String → Option Json} (before : r.build origin found = r.build origin seen)
    (own : (found name).elim absent (c.read origin) = (seen name).elim absent (c.read origin)) :
    (r.field name c part omissible absent).build origin found =
      (r.field name c part omissible absent).build origin seen := by
  rw [fieldBuild, fieldBuild, before, own]

theorem Regular.field (regular : r.Regular defaults) {absent : Except Complaint β}
    (fresh : name ∉ r.fields.map (·.name)) :
    (r.field name c part omissible absent).Regular defaults where
  looks {origin found seen} same := by
    rw [fieldNames] at same
    refine fieldBuilt (regular.looks fun n member => same n (List.mem_append_left _ member)) ?_
    rw [same name (List.mem_append_right _ List.mem_cons_self)]
  known d member := by
    rw [fieldNames]
    exact List.mem_append_left _ (regular.known d member)
  checks d member f field named := by
    rcases List.mem_append.mp field with old | new
    · exact regular.checks d member f old named
    · rw [List.mem_singleton.mp new] at named
      have own : d.name = name := named.symm
      have here := regular.known d member
      rw [own] at here
      exact fun _ => absurd here fresh
  spares d member {origin found seen j} stands given left same := by
    have other : name ≠ d.name := fun here => fresh (here ▸ regular.known d member)
    refine fieldBuilt (regular.spares d member stands given left same) ?_
    rw [same name other]

theorem Regular.default (regular : r.Regular defaults) {value : β}
    (fresh : name ∉ r.fields.map (·.name)) :
    (r.field name c part omissible (.ok value)).Regular (defaults ++ [⟨name, c, value⟩]) where
  looks := (regular.field fresh).looks
  known d member := by
    rcases List.mem_append.mp member with old | new
    · exact (regular.field fresh).known d old
    · rw [List.mem_singleton.mp new, fieldNames]
      exact List.mem_append_right _ List.mem_cons_self
  checks d member f field named := by
    rcases List.mem_append.mp member with old | new
    · exact (regular.field fresh).checks d old f field named
    · obtain rfl := List.mem_singleton.mp new
      rcases List.mem_append.mp field with before | own
      · exact absurd (List.mem_map.mpr ⟨f, before, named⟩) fresh
      · rw [List.mem_singleton.mp own]
        intro origin j stands
        have read : c.read origin j = .ok value := stands origin
        simp only [read, Except.map]
  spares d member {origin found seen j} stands given left same := by
    rcases List.mem_append.mp member with old | new
    · exact (regular.field fresh).spares d old stands given left same
    · obtain rfl := List.mem_singleton.mp new
      have others : ∀ n ∈ r.fields.map (·.name), found n = seen n := fun n before =>
        same n fun here => by
          have here : n = name := here
          exact fresh (here ▸ before)
      refine fieldBuilt (regular.looks others) ?_
      have read : c.read origin j = .ok value := stands origin
      simp only [given, left, Option.elim, read]

end Field

theorem Regular.passes {r : Record σ α} {defaults : List Default} (regular : r.Regular defaults)
    {fit : Json → Bool} {d : Default} {j : Json} {origin : Origin} (member : d ∈ defaults)
    (stands : d.Stands j) : Passes fit r.fields origin (some d.name, j) := by
  obtain ⟨f, field, named, found⟩ := fieldNamed (regular.known d member)
  exact (passesField found).mpr (regular.checks d member f field named stands)

theorem Regular.spared {r : Record σ α} {defaults : List Default} (regular : r.Regular defaults)
    {d : Default} {j : Json} {origin : Origin} {members : Members} (member : d ∈ defaults)
    (stands : d.Stands j) (apart : Members.Apart ((some d.name, j) :: members)) :
    r.build origin (memberNamed ((some d.name, j) :: members)) =
      r.build origin (memberNamed members) := by
  have lone : some d.name ∉ members.map (·.1) := (List.nodup_cons.mp apart).1
  exact regular.spares d member stands List.lookup_cons_self (memberNamedNone lone)
    fun name other => memberNamedOther other

theorem Regular.unasked {r : Record σ α} {defaults : List Default} (regular : r.Regular defaults)
    {origin : Origin} {members extra : Members}
    (unknown : ∀ m ∈ extra, ∃ key, m.1 = some key ∧ key ∉ r.fields.map (·.name)) :
    r.build origin (memberNamed (members ++ extra)) = r.build origin (memberNamed members) := by
  refine regular.looks fun name known => memberNamedFront fun here => ?_
  obtain ⟨m, member, same⟩ := List.mem_map.mp here
  obtain ⟨key, named, foreign⟩ := unknown m member
  have same : name = key := Option.some.inj (same.symm.trans named)
  exact foreign (same ▸ known)

theorem Regular.lenient {r : Record σ α} {defaults : List Default} (regular : r.Regular defaults)
    (origin : Origin) (complete : Bool) :
    Lenient intact (r.fields.map (·.name)) defaults fun members =>
      r.readMembers origin members complete :=
  .ofPasses (r.readMembersIff ·)
    (fun apart perm => by rw [memberNamedPerm apart perm])
    (fun unknown good => (passesOther unknown).mpr good)
    (fun _ meaningless => by
      rw [regular.unasked fun m member =>
        let ⟨key, named, unknown, _⟩ := meaningless m member
        ⟨key, named, unknown⟩])
    (fun member stands _ => regular.passes member stands)
    (fun member stands _ apart => by rw [regular.spared member stands apart])

end Record

mutual

theorem intactOfKeepable : {j : Json} → {room : Nat} → j.keepable room = true → j.intact = true
  | .null, _, _ | .bool _, _, _ | .number _, _, _ | .string _, _, _ => rfl
  | .array items complete, room, good => by
    simp only [keepable, Bool.and_eq_true] at good
    simp only [intact, good.2, intactItemsOfKeepable good.1.2, Bool.and_self]
  | .object members complete, room, good => by
    simp only [keepable, Bool.and_eq_true] at good
    simp only [intact, good.2, intactMembersOfKeepable good.1.2, Bool.and_self]

theorem intactItemsOfKeepable : {items : List Json} → {room : Nat} →
    keepableItems room items = true → intactItems items = true
  | [], _, _ => rfl
  | item :: items, _, good => by
    rw [keepableItems, Bool.and_eq_true] at good
    rw [intactItems, intactOfKeepable good.1, intactItemsOfKeepable good.2, Bool.and_self]

theorem intactMembersOfKeepable : {members : Members} → {room : Nat} →
    keepableMembers room members = true → intactMembers members = true
  | [], _, _ => rfl
  | (key, value) :: members, _, good => by
    simp only [keepableMembers, Bool.and_eq_true] at good
    rw [intactMembers, intactOfKeepable good.1.2, intactMembersOfKeepable good.2, Bool.and_self]

end

namespace Tagged

def Passes (t : Tagged α) (m : Option String × Json) : Prop :=
  ∃ key, m.1 = some key ∧
    if key = t.tag then ∃ c, t.named m.2 = .ok c else m.2.keepable heldRoom = true

def chosen (t : Tagged α) (members : Members) : Option (Content α) :=
  (Record.memberNamed members t.tag).bind fun j => (t.named j).toOption

def others (t : Tagged α) (members : Members) : Members :=
  members.filter fun m => m.1 ≠ some t.tag

section Tagged
variable {t : Tagged α} {members extra : Members} {key : String} {j : Json}

theorem chosenKnown {c : Content α} (chosen : t.chosen members = some c) :
    ∃ v ∈ t.variants, v.2 = c := by
  obtain ⟨j, _, read⟩ := Option.bind_eq_some_iff.mp chosen
  unfold Tagged.named Codec.variant at read
  split at read
  · next name _ =>
    cases found : t.variants.lookup name with
    | none => simp [found, Except.toOption] at read
    | some known =>
      have same : known = c := by simpa [found, Except.toOption] using read
      obtain ⟨front, back, variants, _⟩ := List.lookup_eq_some_iff.mp found
      exact ⟨(name, known), variants ▸ List.mem_append_right front List.mem_cons_self, same⟩
  · cases read

theorem passesTag : t.Passes (some t.tag, j) ↔ ∃ c, t.named j = .ok c := by
  simp [Passes]

theorem passesOther (other : key ≠ t.tag) :
    t.Passes (some key, j) ↔ j.keepable heldRoom = true := by
  simp [Passes, other]

theorem chosenTag {c : Content α} (named : t.named j = .ok c) :
    t.chosen ((some t.tag, j) :: members) = some c := by
  simp [chosen, Record.memberNamed, named, Except.toOption]

theorem chosenOther (other : key ≠ t.tag) :
    t.chosen ((some key, j) :: members) = t.chosen members := by
  rw [chosen, memberNamedOther other.symm, chosen]

theorem othersTag : t.others ((some t.tag, j) :: members) = t.others members := by
  simp [others]

theorem othersOther (other : key ≠ t.tag) :
    t.others ((some key, j) :: members) = (some key, j) :: t.others members := by
  simp [others, other]

theorem othersBehind (unlike : ∀ m ∈ extra, m.1 ≠ some t.tag) :
    t.others (members ++ extra) = t.others members ++ extra := by
  rw [others, List.filter_append]
  exact congrArg _ (List.filter_eq_self.mpr fun m member => decide_eq_true (unlike m member))

theorem gatherIff {content : Option (Content α)} (apart : members.Apart)
    (once : content.isSome → some t.tag ∉ members.map (·.1))
    (gathered : Option (Content α) × Members) :
    t.gather content members = .ok gathered ↔
      (∀ m ∈ members, t.Passes m) ∧ gathered = (content.or (t.chosen members), t.others members) := by
  induction members generalizing content gathered with
  | nil => simp [gather, chosen, others, Record.memberNamed, eq_comm]
  | cons m rest ih =>
    obtain ⟨key, j⟩ := m
    obtain ⟨lone, fewer⟩ := List.nodup_cons.mp apart
    rw [List.forall_mem_cons]
    cases key with
    | none => simp [gather, Passes]
    | some key =>
      by_cases tag : key = t.tag
      · subst tag
        cases content with
        | some c => exact absurd List.mem_cons_self (once rfl)
        | none =>
          rw [gather, if_pos rfl, passesTag]
          cases named : t.named j with
          | error e => simp [bind, Except.bind]
          | ok c =>
            rw [chosenTag named, othersTag]
            have later := @ih (some c) fewer (fun _ => lone) gathered
            rw [Option.some_or] at later
            simpa [bind, Except.bind, -Prod.forall] using later
      · have later : content.isSome → some t.tag ∉ rest.map (·.1) := fun met there =>
          once met (List.mem_cons_of_mem _ there)
        rw [gather, if_neg tag, passesOther tag, chosenOther tag, othersOther tag]
        by_cases kept : j.keepable heldRoom = true
        · rw [if_pos kept, bindKnown (ih fewer later), Except.ok.injEq, eq_comm]
          simp only [kept, true_and]
        · simp [kept]

theorem readMembersIff {complete : Bool} (apart : members.Apart) (x : α) :
    t.readMembers members complete = .ok x ↔ (∀ m ∈ members, t.Passes m) ∧
      complete = true ∧ ∃ c, t.chosen members = some c ∧ c.ofMembers (t.others members) = .ok x := by
  have gathered := @gatherIff α t members none apart (by simp)
  rw [Tagged.readMembers, bindKnown gathered, Option.none_or]
  refine and_congr_right fun _ => ?_
  cases complete with
  | false => simp
  | true => cases t.chosen members <;> simp [missing]

variable {fields : List String} {defaults : List Default}

theorem lenient (complete : Bool) (free : ∀ d ∈ defaults, d.name ≠ t.tag)
    (each : ∀ v ∈ t.variants, Lenient (keepable heldRoom) fields defaults v.2.ofMembers) :
    Lenient (keepable heldRoom) (t.tag :: fields) defaults fun members =>
      t.readMembers members complete := by
  have unlike {key : String} (unknown : key ∉ t.tag :: fields) : key ≠ t.tag ∧ key ∉ fields :=
    ⟨fun here => unknown (here ▸ List.mem_cons_self),
      fun here => unknown (List.mem_cons_of_mem _ here)⟩
  have lenient {members : Members} {c : Content α} (chosen : t.chosen members = some c) :
      Lenient (keepable heldRoom) fields defaults c.ofMembers := by
    obtain ⟨v, known, rfl⟩ := chosenKnown chosen
    exact each v known
  refine .ofPasses readMembersIff (fun {members others x} apart perm => ?_)
    (fun {key j} unknown good => (passesOther (unlike unknown).1).mpr good) ?_
    (fun {d j} member _ good => (passesOther (free d member)).mpr good) ?_
  · have held : (t.others members).Perm (t.others others) := perm.filter _
    have chosen : t.chosen members = t.chosen others := by
      rw [Tagged.chosen, Tagged.chosen, memberNamedPerm apart perm]
    rw [← chosen]
    refine and_congr_right fun _ => exists_congr fun c => and_congr_right fun which => ?_
    exact (lenient which).reordered (apart.sublist List.filter_sublist) held x
  · intro members extra x apart meaningless
    have foreign : ∀ m ∈ extra, m.1 ≠ some t.tag := by
      intro m member same
      obtain ⟨key, named, unknown, _⟩ := meaningless m member
      exact (unlike unknown).1 (Option.some.inj (named.symm.trans same))
    have chosen : t.chosen (members ++ extra) = t.chosen members := by
      rw [Tagged.chosen, Tagged.chosen, memberNamedFront fun here => ?_]
      obtain ⟨m, member, same⟩ := List.mem_map.mp here
      exact foreign m member same
    rw [chosen, othersBehind foreign]
    refine and_congr_right fun _ => exists_congr fun c => and_congr_right fun which => ?_
    refine (lenient which).extended ?_ (fun m member => ?_) x
    · rw [← othersBehind foreign]
      exact apart.sublist List.filter_sublist
    · obtain ⟨key, named, unknown, good⟩ := meaningless m member
      exact ⟨key, named, (unlike unknown).2, good⟩
  · intro members d j x member stands good apart
    rw [chosenOther (free d member), othersOther (free d member)]
    refine and_congr_right fun _ => exists_congr fun c => and_congr_right fun which => ?_
    have held : Members.Apart ((some d.name, j) :: t.others members) :=
      apart.sublist (List.filter_sublist.cons_cons _)
    exact (lenient which).omitted member stands good held x

end Tagged

end Tagged

namespace Flattened

def others (fields : List Field) (members : Members) : Members :=
  members.filter fun m => m.1 ∉ fields.map fun f => some f.name

section Flattened
variable {fields : List Field} {members extra : Members} {key : String} {j : Json} {origin : Origin}

theorem othersOwn (own : key ∈ fields.map (·.name)) :
    others fields ((some key, j) :: members) = others fields members := by
  obtain ⟨f, field, named⟩ := List.mem_map.mp own
  rw [others, List.filter_cons_of_neg]
  · rfl
  · simpa using ⟨f, field, named⟩

theorem othersOther (foreign : key ∉ fields.map (·.name)) :
    others fields ((some key, j) :: members) = (some key, j) :: others fields members := by
  rw [others, List.filter_cons_of_pos]
  · rfl
  · simpa using foreign

theorem othersBehind
    (foreign : ∀ m ∈ extra, ∃ key, m.1 = some key ∧ key ∉ fields.map (·.name)) :
    others fields (members ++ extra) = others fields members ++ extra := by
  rw [others, List.filter_append]
  refine congrArg _ (List.filter_eq_self.mpr fun m member => ?_)
  obtain ⟨key, named, unknown⟩ := foreign m member
  simpa [named] using unknown

theorem gatherIff {met : List String} (apart : members.Apart)
    (new : ∀ key ∈ met, some key ∉ members.map (·.1)) (gathered : Members) :
    gather fields origin met members = .ok gathered ↔
      (∀ m ∈ members, Record.Passes (keepable Tagged.heldRoom) fields origin m) ∧
        gathered = others fields members := by
  induction members generalizing met gathered with
  | nil => simp [gather, others, eq_comm]
  | cons m rest ih =>
    obtain ⟨key, j⟩ := m
    obtain ⟨lone, fewer⟩ := List.nodup_cons.mp apart
    rw [List.forall_mem_cons]
    cases key with
    | none => simp [gather, Record.Passes]
    | some key =>
      have later : ∀ k ∈ met, some k ∉ rest.map (·.1) := fun k member there =>
        new k member (List.mem_cons_of_mem _ there)
      have fresh : key ∉ met := fun member => new key member List.mem_cons_self
      rw [gather]
      by_cases known : key ∈ fields.map (·.name)
      · obtain ⟨f, _, _, found⟩ := Record.fieldNamed known
        have again : ∀ k ∈ key :: met, some k ∉ rest.map (·.1) :=
          List.forall_mem_cons.mpr ⟨lone, later⟩
        simp only [Record.passesField found, othersOwn known, found, fresh, if_false, bindChecked,
          ih fewer again, and_assoc]
      · rw [othersOther known, Record.passesOther known, Record.fieldUnknown known]
        by_cases kept : j.keepable Tagged.heldRoom = true
        · simp only [kept, if_true, bindKnown (ih fewer later), Except.ok.injEq, true_and, eq_comm]
        · simp [kept]

theorem readIff {r : Flattened σ τ α} {complete : Bool} (apart : members.Apart) (x : α) :
    r.read origin (.object members complete) = .ok x ↔
      (∀ m ∈ members, Record.Passes (keepable Tagged.heldRoom) r.own.fields origin m) ∧
        complete = true ∧ ∃ make, r.own.build origin (Record.memberNamed members) = .ok make ∧
          ∃ y, r.inner.readMembers .held (others r.own.fields members) true = .ok y ∧
            make y = x := by
  have gathered := @gatherIff r.own.fields members origin [] apart (by simp)
  rw [Flattened.read, bindKnown gathered]
  refine and_congr_right fun _ => ?_
  cases complete with
  | false => simp
  | true => simp [bindOkIff]

theorem lenient {r : Flattened σ τ α} {own inner : List Default} (regular : r.own.Regular own)
    (within : r.inner.Regular inner) (free : ∀ d ∈ inner, d.name ∉ r.own.fields.map (·.name))
    (origin : Origin) (complete : Bool) :
    Lenient (keepable Tagged.heldRoom)
      (r.inner.fields.map (·.name) ++ r.own.fields.map (·.name)) (inner ++ own)
      fun members => r.read origin (.object members complete) := by
  have lenient := within.lenient .held true
  refine .ofPasses readIff (fun {members others x} apart perm => ?_) ?_ ?_ ?_ ?_
  · have held : (Flattened.others r.own.fields members).Perm
        (Flattened.others r.own.fields others) := perm.filter _
    rw [memberNamedPerm apart perm]
    refine and_congr_right fun _ => exists_congr fun make => and_congr_right fun _ => ?_
    refine exists_congr fun y => and_congr_left fun _ => ?_
    exact lenient.reordered (apart.sublist List.filter_sublist) held y
  · intro key j unknown good
    exact (Record.passesOther fun here => unknown (List.mem_append_right _ here)).mpr good
  · intro members extra x apart meaningless
    have foreign : ∀ m ∈ extra, ∃ key, m.1 = some key ∧ key ∉ r.own.fields.map (·.name) :=
      fun m member =>
        let ⟨key, named, unknown, _⟩ := meaningless m member
        ⟨key, named, fun here => unknown (List.mem_append_right _ here)⟩
    rw [regular.unasked foreign, othersBehind foreign]
    refine and_congr_right fun _ => exists_congr fun make => and_congr_right fun _ => ?_
    refine exists_congr fun y => and_congr_left fun _ => ?_
    refine lenient.extended ?_ (fun m member => ?_) y
    · rw [← othersBehind foreign]
      exact apart.sublist List.filter_sublist
    · obtain ⟨key, named, unknown, good⟩ := meaningless m member
      exact ⟨key, named, fun here => unknown (List.mem_append_left _ here),
        intactOfKeepable good⟩
  · intro d j member stands good
    rcases List.mem_append.mp member with other | mine
    · exact (Record.passesOther (free d other)).mpr good
    · exact regular.passes mine stands
  · intro members d j x member stands good apart
    rcases List.mem_append.mp member with other | mine
    · have foreign := free d other
      have looked : r.own.build origin (Record.memberNamed ((some d.name, j) :: members)) =
          r.own.build origin (Record.memberNamed members) :=
        regular.looks fun name known => memberNamedOther fun here => foreign (here ▸ known)
      have held : Members.Apart ((some d.name, j) :: Flattened.others r.own.fields members) :=
        apart.sublist (List.filter_sublist.cons_cons _)
      rw [looked, othersOther foreign]
      refine and_congr_right fun _ => exists_congr fun make => and_congr_right fun _ => ?_
      refine exists_congr fun y => and_congr_left fun _ => ?_
      exact lenient.omitted other stands (intactOfKeepable good) held y
    · rw [regular.spared mine stands apart, othersOwn (regular.known d mine)]

end Flattened

end Flattened

/-- The codec of a type with these fields and defaults, each of which can be written. -/
structure Codec.Tolerant (c : Codec α) (fit : Json → Bool) (fields : List String)
    (defaults : List Default) : Prop where
  lenient : ∀ origin complete, Lenient fit fields defaults fun members =>
    c.read origin (.object members complete)
  given : ∀ d ∈ defaults, d.Stands d.written ∧ fit d.written = true

theorem Codec.Lawful.given {c : Codec α} {name : String} {value : α} {room : Nat}
    (law : c.Lawful room) : (⟨name, c, value⟩ : Default).Stands (c.write value) ∧
      (c.write value).keepable room = true :=
  ⟨fun origin => law.reads origin value, keepableOfPlain (law.plain value)⟩

end MutationPipeline.Json
