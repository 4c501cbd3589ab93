import Mathlib.Data.List.Forall2
import Mathlib.Data.List.Nodup
import SpriteEngine.Config.Reader
import SpriteEngine.Proofs.JsonText

/-!
# Configs written as objects

What `Config.parse` answers to a text that is a JSON object (`Json.IsObjectText`). The members are
read one after the other, and each takes the field with its key out of the fields that are left
(`Config.members_member`). Two facts about all the members follow by induction. If they give values
to different fields, then the config that is read has these values, in whatever order the fields
come (`Config.members_given`). And if any config is read at all, then the keys belong to different
fields (`Config.keys_of_members`), so that none is unknown and none is there twice.

`Config.Gives` says that a text gives values to some of the fields, and `Config.AnsweredBy` what the
answer to it is: limits are checked in a fixed order, which is not that of the text.
-/

namespace SpriteEngine.Config

open Json

variable {left : List Field} {first : Bool} {inside s : List Char} {m : Member} {f : Field}

/-! ### Keys -/

/-- The members as they are found one by one: all but the first follow a comma. -/
def separated (first : Bool) : List Member → List Char
  | [] => []
  | m :: ms => (if first then m.text else ',' :: m.text) ++ separated false ms

/-- Members joined with commas are what the loop over the members reads: a comma before each of them
but the first. -/
private theorem intercalate_eq_separated (ms : List Member) :
    [','].intercalate (ms.map Member.text) = separated true ms := by
  cases ms with
  | nil => rfl
  | cons m ms =>
    induction ms generalizing m with
    | nil => simp [separated]
    | cons m' ms ih =>
      have hrest := ih m'
      simp only [List.map_cons, List.intercalate_cons_cons, separated] at hrest ⊢
      rw [hrest]
      simp

/-- A closing brace ends the object, before the first member and after any other. -/
private theorem nextKey_close (first : Bool) (hinside : Blank inside) (s : List Char) :
    nextKey first (inside ++ '}' :: s) = .ok (none, s) := by
  rw [nextKey, hinside.skipBlanks_cons '}' (by decide)]
  rfl

/-- The key of the next member is read up to the end of its string. Its colon and its value are
left. -/
private theorem nextKey_member (first : Bool) (hinside : Blank inside) (hm : m.IsWritten)
    (s : List Char) :
    nextKey first (inside ++ ((if first then m.text else ',' :: m.text) ++ s)) =
      .ok (some m.key, m.after ++ ':' :: (m.item.text ++ s)) := by
  cases first with
  | true =>
    have hskip := hm.before.skipBlanks_cons '"' (by decide)
    simp only [if_true, nextKey, hinside.skipBlanks, m.text_append, hskip]
    simp [hm.spells.quoted, Except.map]
  | false =>
    simp only [nextKey, Bool.false_eq_true, if_false, List.cons_append,
      hinside.skipBlanks_cons ',' (by decide), m.text_append]
    simp [hm.before.expect '"' (by decide), hm.spells.quoted, bind, Except.bind]

/-- The first member is read by the field with its key, if that is still left. -/
theorem members_member (left : List Field) (first : Bool) (c : Config) (hinside : Blank inside)
    (hm : m.IsWritten) (s : List Char) :
    members left first c (inside ++ ((if first then m.text else ',' :: m.text) ++ s)) =
      match left.find? fun f => f.key.toList == m.key with
      | none => .error .mismatch
      | some f =>
        (unsigned f.limit (m.item.text ++ s)).bind fun (n, rest) =>
          members (left.erase f) false (c.set n f) rest := by
  rw [members, nextKey_member first hinside hm]
  dsimp only
  split
  · rename_i hfind
    rw [hfind]
  · rename_i f hfind
    rw [hfind]
    simp only [hm.after.expect ':' (by decide)]
    cases unsigned f.limit (m.item.text ++ s) <;> rfl

/-- The loop ends at the closing brace with the config that it has made so far. -/
private theorem members_close (left : List Field) (first : Bool) (c : Config)
    (hinside : Blank inside) (s : List Char) :
    members left first c (inside ++ '}' :: s) = .ok (c, s) := by
  rw [members, nextKey_close first hinside]

/-- No number goes on after a value and the blanks that follow it. -/
private theorem ends_separated {b : List Char} (hb : Blank b) (ms : List Member) (s : List Char) :
    Ends (b ++ (separated false ms ++ '}' :: s)) := by
  cases ms with
  | nil => exact hb.ends (.inr rfl) s
  | cons m ms => exact hb.ends (.inl rfl) _

private theorem Field.eq_of_key {f g : Field} (h : f.key.toList = g.key.toList) : f = g := by
  revert h
  cases f <;> cases g <;> decide

/-- A key is looked up among the fields that were not given yet. -/
private theorem find?_key (h : f ∈ left) :
    (left.find? fun g => g.key.toList == f.key.toList) = some f := by
  cases hfind : left.find? fun g => g.key.toList == f.key.toList with
  | none => simpa using List.find?_eq_none.1 hfind f h
  | some g =>
    have hkey : g.key.toList = f.key.toList := by simpa using List.find?_some hfind
    rw [Field.eq_of_key hkey]

/-! ### Objects with known keys -/

/-- The number in a field. -/
def get (c : Config) : Field → Nat
  | .tileUnits => c.tileUnits
  | .oamSlots => c.oamSlots
  | .affineSlots => c.affineSlots

private theorem get_set (c : Config) (n : Nat) (f g : Field) :
    (c.set n f).get g = if g = f then n else c.get g := by
  cases f <;> cases g <;> rfl

/-- The member gives the field its value, as a plain decimal number that the field can hold. -/
def IsGiven (value : Field → Option Nat) (f : Field) (m : Member) : Prop :=
  m.key = f.key.toList ∧ ∃ n ≤ f.limit, value f = some n ∧ m.item.value = Nat.toDigits 10 n

/-- What a field can have fits into 64 bits, so the number reader does not lose digits of it. -/
private theorem Field.limit_lt (f : Field) : f.limit < 18446744073709551616 := by
  cases f <;> decide

/-- Fields that are given are set, and the others are left as they are. -/
theorem members_given {value : Field → Option Nat} {fields : List Field} {ms : List Member}
    (first : Bool) (c : Config) (hgiven : List.Forall₂ (IsGiven value) fields ms)
    (hwritten : ∀ m ∈ ms, m.IsWritten) (hinside : Blank inside) (hnodup : fields.Nodup)
    (hleft : fields ⊆ left) :
    ∃ c' : Config, members left first c (inside ++ (separated first ms ++ '}' :: s)) = .ok (c', s) ∧
      ∀ g, (g ∈ fields → value g = some (c'.get g)) ∧ (g ∉ fields → c'.get g = c.get g) := by
  induction hgiven generalizing left first c inside with
  | nil => exact ⟨c, members_close left first c hinside s, by simp⟩
  | @cons f m fields ms hfm _ ih =>
    obtain ⟨hkey, n, hn, hvalue, htext⟩ := hfm
    obtain ⟨hm, hms⟩ := List.forall_mem_cons.1 hwritten
    obtain ⟨hf, hnodup⟩ := List.nodup_cons.1 hnodup
    have hread := unsigned_toDigits hm.item.before hn (Nat.lt_of_le_of_lt hn f.limit_lt)
      (ends_separated hm.item.after ms s)
    have hrest : fields ⊆ left.erase f := fun g hg =>
      (List.mem_erase_of_ne (ne_of_mem_of_not_mem hg hf)).2 (hleft (List.mem_cons_of_mem f hg))
    obtain ⟨c', hc', hget⟩ := ih false (c.set n f) hms hm.item.after hnodup hrest
    refine ⟨c', ?_, fun g => ⟨fun hg => ?_, fun hg => ?_⟩⟩
    · rw [separated, List.append_assoc, members_member left first c hinside hm, hkey,
        find?_key (hleft List.mem_cons_self), Item.text_append, htext]
      simp only [hread, Except.bind, hc']
    · rcases List.mem_cons.1 hg with rfl | hg
      · rw [(hget g).2 hf, get_set, if_pos rfl, hvalue]
      · exact (hget g).1 hg
    · obtain ⟨hne, hg⟩ := List.ne_and_not_mem_of_not_mem_cons hg
      rw [(hget g).2 hg, get_set, if_neg hne]

/-! ### Keys of objects that are read -/

/-- If an object is read, then its keys are those of different fields. -/
theorem keys_of_members {ms : List Member} (first : Bool) (c : Config) {r : Config × List Char}
    (hwritten : ∀ m ∈ ms, m.IsWritten ∧ IsValue m.item.value) (hinside : Blank inside)
    (hleft : left.Nodup)
    (h : members left first c (inside ++ (separated first ms ++ '}' :: s)) = .ok r) :
    ∃ fields : List Field, ms.map Member.key = fields.map (·.key.toList) ∧ fields.Nodup ∧
      fields ⊆ left := by
  induction ms generalizing left first c inside with
  | nil => exact ⟨[], rfl, List.nodup_nil, List.nil_subset left⟩
  | cons m ms ih =>
    obtain ⟨⟨hm, hvalue⟩, hms⟩ := List.forall_mem_cons.1 hwritten
    rw [separated, List.append_assoc, members_member left first c hinside hm] at h
    split at h
    · simp at h
    · rename_i f hfind
      have hkey : f.key.toList = m.key := by simpa using List.find?_some hfind
      cases hread : unsigned f.limit (m.item.text ++ (separated false ms ++ '}' :: s)) with
      | error e => simp [hread, Except.bind] at h
      | ok p =>
        obtain ⟨n, rest⟩ := p
        simp only [hread, Except.bind] at h
        rw [Item.text_append] at hread
        obtain rfl := hvalue.rest_of_unsigned hm.item.before
          (ends_separated hm.item.after ms s) hread
        -- the other members are read with the fields that are left, and `f` is not one of them
        obtain ⟨fields, hkeys, hnodup, hsub⟩ :=
          ih false (c.set n f) hms hm.item.after (hleft.erase f) h
        have hf : f ∉ fields := fun hf => hleft.not_mem_erase (hsub hf)
        refine ⟨f :: fields, by simp [hkey, hkeys], List.nodup_cons.2 ⟨hf, hnodup⟩, ?_⟩
        exact List.cons_subset.2 ⟨List.mem_of_find?_eq_some hfind,
          fun g hg => List.mem_of_mem_erase (hsub hg)⟩

/-! ### Whole texts -/

/-- Before the loop over the members there are only blanks and a brace. -/
private theorem readFront_object {before : List Char} (hbefore : Blank before) (inside : List Char)
    (ms : List Member) (after : List Char) :
    readFront (before ++ (objectText inside ms ++ after)) =
      members Field.all true {} (inside ++ (separated true ms ++ '}' :: after)) := by
  rw [objectText, intercalate_eq_separated, List.cons_append, readFront,
    hbefore.skipBlanks_cons '{' (by decide)]
  simp

/-- The default config, with the fields that are given overridden. -/
def overridden (value : Field → Option Nat) : Config where
  tileUnits := (value .tileUnits).getD ({} : Config).tileUnits
  oamSlots := (value .oamSlots).getD ({} : Config).oamSlots
  affineSlots := (value .affineSlots).getD ({} : Config).affineSlots

/-- The text is an object that gives values to some of the fields, in any order and each once. -/
def Gives (text : String) (value : Field → Option Nat) : Prop :=
  ∃ fields ms, IsObjectText text.toList ms ∧ List.Forall₂ (IsGiven value) fields ms ∧
    fields.Nodup ∧ ∀ f, (value f).isSome → f ∈ fields

/-- A text that gives values for fields is read as the defaults with these values in place. -/
private theorem Gives.read {text : String} {value : Field → Option Nat} (h : Gives text value) :
    Config.read text = .ok (overridden value) := by
  obtain ⟨fields, ms, ⟨before, inside, after, hbefore, hinside, hafter, hms, htext⟩, hgiven, hnodup,
    hfields⟩ := h
  have hall : fields ⊆ Field.all := fun f _ => by cases f <;> decide
  obtain ⟨c, hc, hget⟩ := members_given (s := after) true {} hgiven (fun m hm => (hms m hm).1)
    hinside hnodup hall
  have hvalue : ∀ f, c.get f = (value f).getD (({} : Config).get f) := by
    intro f
    by_cases hf : f ∈ fields
    · rw [(hget f).1 hf, Option.getD_some]
    · have hnone : value f = none := by
        simpa using mt (hfields f) hf
      rw [(hget f).2 hf, hnone, Option.getD_none]
  have hconfig : c = overridden value := by
    rw [overridden, Config.mk.injEq]
    exact ⟨hvalue .tileUnits, hvalue .oamSlots, hvalue .affineSlots⟩
  rw [Config.read, htext, readFront_object hbefore, hc, hconfig]
  simp [bind, Except.bind, hafter.skipBlanks_eq_nil]

/-- If a text that is an object is read, then its keys are those of different fields. -/
private theorem keys_of_read {text : String} {ms : List Member} {c : Config}
    (htext : IsObjectText text.toList ms) (h : Config.read text = .ok c) :
    ∃ fields : List Field, ms.map Member.key = fields.map (·.key.toList) ∧ fields.Nodup := by
  obtain ⟨before, inside, after, hbefore, hinside, -, hms, htext⟩ := htext
  rw [Config.read, htext, readFront_object hbefore] at h
  cases hread : members Field.all true {} (inside ++ (separated true ms ++ '}' :: after)) with
  | error e => simp [hread, bind, Except.bind] at h
  | ok r =>
    obtain ⟨fields, hkeys, hnodup, -⟩ := keys_of_members true {} hms hinside (by decide) hread
    exact ⟨fields, hkeys, hnodup⟩

/-! ### Limits -/

/-- The answer to a text with the given config: the config itself if it keeps the limits of the
hardware, and otherwise the first limit that is exceeded. -/
structure AnsweredBy (c : Config) (answer : Except ConfigError Config) : Prop where
  accepted : answer = .ok c ↔ c.tileUnits ≤ 1024 ∧ c.oamSlots ≤ 128 ∧ c.affineSlots ≤ 32
  tiles : 1024 < c.tileUnits → answer = .error (.tooManyTiles c.tileUnits)
  slots : c.tileUnits ≤ 1024 → 128 < c.oamSlots → answer = .error (.tooManySlots c.oamSlots)
  affine : c.tileUnits ≤ 1024 → c.oamSlots ≤ 128 → 32 < c.affineSlots →
    answer = .error (.tooManyAffine c.affineSlots)

/-- What was read is checked, and it is not changed by that. -/
private theorem parse_of_read {text : String} {c : Config} (h : Config.read text = .ok c) :
    parse text = c.validate.map fun _ => c := by
  simp only [parse, h, Except.mapError, bind, Except.bind]
  cases c.validate <;> rfl

/-- The checks answer with the first limit that is exceeded. -/
private theorem answeredBy_validate (c : Config) : c.AnsweredBy (c.validate.map fun _ => c) where
  accepted := by
    rw [← validate_eq_ok_iff]
    cases c.validate <;> simp [Except.map]
  tiles h := by
    rw [validate, if_pos h]
    rfl
  slots htiles h := by
    rw [validate, if_neg (by omega), if_pos h]
    rfl
  affine htiles hslots h := by
    rw [validate, if_neg (by omega), if_neg (by omega), if_pos h]
    rfl

/-- A config comes out of a text only if it was read from it and passes the checks. -/
private theorem parse_eq_ok {text : String} {c : Config} (h : parse text = .ok c) :
    Config.read text = .ok c ∧ c.validate = .ok () := by
  cases hread : Config.read text with
  | error e => simp [parse, hread, bind, Except.bind, Except.mapError] at h
  | ok c' =>
    rw [parse_of_read hread] at h
    cases hvalid : c'.validate with
    | error e => simp [hvalid, Except.map] at h
    | ok _ =>
      obtain rfl : c' = c := by simpa [hvalid, Except.map] using h
      exact ⟨rfl, hvalid⟩

/-- A config written as an object is answered by its values alone, whatever the order of its keys.
Every config that is accepted keeps the limits, and no object with an unknown key, or with one key
twice, is accepted. -/
theorem parse_answers_objects :
    (∀ text value, Gives text value → (overridden value).AnsweredBy (parse text)) ∧
    (∀ text c, parse text = .ok c → c.validate = .ok ()) ∧
    ∀ (text : String) (ms : List Member), IsObjectText text.toList ms →
      ((∃ m ∈ ms, ∀ f : Field, m.key ≠ f.key.toList) ∨ ¬(ms.map Member.key).Nodup) →
        ∀ c, parse text ≠ .ok c := by
  refine ⟨fun text value h => ?_, fun text c h => (parse_eq_ok h).2, ?_⟩
  · rw [parse_of_read h.read]
    exact answeredBy_validate _
  · rintro text ms htext hkeys c h
    obtain ⟨fields, hfields, hnodup⟩ := keys_of_read htext (parse_eq_ok h).1
    rcases hkeys with ⟨m, hm, hunknown⟩ | hrepeated
    · have hkey : m.key ∈ fields.map (·.key.toList) := hfields ▸ List.mem_map_of_mem hm
      obtain ⟨f, -, hf⟩ := List.mem_map.1 hkey
      exact hunknown f hf.symm
    · rw [hfields] at hrepeated
      exact hrepeated (hnodup.map fun _ _ => Field.eq_of_key)

/-- A member that gives a field a number, with the same blanks everywhere. -/
def Field.member (f : Field) (spelling : String) (n : Nat) (b : List Char) : Member :=
  ⟨b, spelling.toList, f.key.toList, b, ⟨b, Nat.toDigits 10 n, b⟩⟩

private theorem Field.isWritten_member {spelling : String} {b : List Char} (hb : Blank b)
    (hspells : Spells spelling.toList f.key.toList) (n : Nat) :
    (f.member spelling n b).IsWritten ∧ IsValue (f.member spelling n b).item.value :=
  ⟨⟨hb, hspells, hb, ⟨hb, hb⟩⟩, isValue_toDigits n⟩

/-- A text with its keys out of order, an escape in one of them, and two limits exceeded. -/
def shuffledText : String :=
  "\x7b \"affine_slots\" : 33 ,\n\"tile\\u005funits\"\n:\n1025\n\x7d "

/-- A text with one key spelled in two ways. -/
def repeatedText : String :=
  "\x7b\"oam_slots\":1,\"oam\\u005fslots\":1\x7d"

/-- Of the two limits that the first text exceeds, the one on tiles is reported. The second text is
refused because of its keys. -/
theorem parse_answers_objects_shuffled :
    (∃ value, Gives shuffledText value ∧ overridden value = ⟨1025, 128, 33⟩) ∧
      parse shuffledText = .error (.tooManyTiles 1025) ∧
      (∃ ms, IsObjectText repeatedText.toList ms ∧ ¬(ms.map Member.key).Nodup) ∧
      ∀ c, parse repeatedText ≠ .ok c := by
  have hescape : ∀ t s : List Char, t.all isPlain = true → s.all isPlain = true →
      Spells (t ++ ("\\u005f".toList ++ s)) (t ++ '_' :: s) := fun t s ht hs =>
    (Spells.unicode (n := 0x5f) (by decide) (by decide) (spells_self hs)).append_plain ht
  have htiles : Spells "tile\\u005funits".toList Field.tileUnits.key.toList :=
    hescape "tile".toList "units".toList (by decide) (by decide)
  have hslots : Spells "oam\\u005fslots".toList Field.oamSlots.key.toList :=
    hescape "oam".toList "slots".toList (by decide) (by decide)
  have hgives : Gives shuffledText fun
      | .tileUnits => some 1025
      | .oamSlots => none
      | .affineSlots => some 33 := by
    refine ⟨[.affineSlots, .tileUnits], [Field.member .affineSlots "affine_slots" 33 [' '],
      Field.member .tileUnits "tile\\u005funits" 1025 ['\n']], ⟨[], [], [' '], by decide, by decide,
      by decide, ?_, by decide +kernel⟩, ?_, by decide, ?_⟩
    · simp only [List.forall_mem_cons]
      exact ⟨Field.isWritten_member (by decide) (spells_self (by decide)) 33,
        Field.isWritten_member (by decide) htiles 1025, by simp⟩
    · exact .cons ⟨rfl, 33, by decide, rfl, rfl⟩ (.cons ⟨rfl, 1025, by decide, rfl, rfl⟩ .nil)
    · rintro (_ | _ | _) <;> simp
  have hrepeated : IsObjectText repeatedText.toList [Field.member .oamSlots "oam_slots" 1 [],
      Field.member .oamSlots "oam\\u005fslots" 1 []] := by
    refine ⟨[], [], [], by decide, by decide, by decide, ?_, by decide +kernel⟩
    simp only [List.forall_mem_cons]
    exact ⟨Field.isWritten_member (by decide) (spells_self (by decide)) 1,
      Field.isWritten_member (by decide) hslots 1, by simp⟩
  obtain ⟨hanswer, -, hrefuse⟩ := parse_answers_objects
  exact ⟨⟨_, hgives, rfl⟩, (hanswer _ _ hgives).tiles (by decide),
    ⟨_, hrepeated, by decide⟩, hrefuse _ _ hrepeated (.inr (by decide))⟩

end SpriteEngine.Config
