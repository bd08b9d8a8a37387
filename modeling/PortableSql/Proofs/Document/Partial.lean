import Mathlib.Data.List.Count
import PortableSql.Proofs.Document.Dialect
import PortableSql.Proofs.Document.Grammar

/-!
# Partial documents

A document of a dialect need not have all keys, and it may have others. Reading it gives the ANSI
preset with the fields that are there, in whatever order and with whatever else between them, and
fails where a key of a field is there twice (`Dialect.read_partial`). Every field is read by itself:
what is found under its key depends on how often the key is there, and on nothing else.
-/

namespace PortableSql

open Json (Raw Glyph Spaces Entry)

namespace Json

/-! ## Documents of a tree -/

/-- The document a tree is one of. Members may stand in another order. -/
inductive Raw.Denotes : Raw → Json → Prop where
  | null : Denotes .null .null
  | bool (b : Bool) : Denotes (.bool b) (.bool b)
  | int {m : Numeral} {n : Int} : m.value? = some (.int n) → Denotes (.number m) (.int n)
  | float {m : Numeral} {x : Double} : m.value? = some (.float x) → Denotes (.number m) (.float x)
  | string {gs : List Glyph} {s : String} : Glyph.text? gs = some s →
      Denotes (.string gs) (.string s)
  | array {ps : List (Raw × Json)} : (∀ p ∈ ps, Denotes p.1 p.2) →
      Denotes (.array (ps.map Prod.fst)) (.array (ps.map Prod.snd))
  | object {ps : List ((List Glyph × Raw) × String × Json)} {js : List (String × Json)} :
      (∀ p ∈ ps, Glyph.text? p.1.1 = some p.2.1) → (∀ p ∈ ps, Denotes p.1.2 p.2.2) →
      (ps.map Prod.snd).Perm js → Denotes (.object (ps.map Prod.fst)) (.object js)

namespace Raw.Denotes

section
variable {v : Raw}

theorem text?_eq {s : String} (h : Denotes v (.string s)) : v.text? = some s := by
  cases h with
  | string hs => exact hs

theorem char?_eq {c : Char} (h : Denotes v (.string (String.singleton c))) : v.char? = some c := by
  cases h with
  | @string gs _ hs =>
    obtain ⟨cs, hdecode, hcs⟩ := Option.map_eq_some_iff.1 hs
    have hsingle : cs = [c] := by
      rw [← String.toList_ofList (l := cs), hcs, String.toList_singleton]
    rw [Raw.char?, hdecode, hsingle]

theorem bool?_eq {b : Bool} (h : Denotes v (.bool b)) : v.bool? = some b := by
  cases h with
  | bool => rfl

theorem texts?_eq {ss : List String} (h : Denotes v (.array (ss.map .string))) :
    v.texts? = some ss := by
  generalize hjs : ss.map Json.string = js at h
  cases h with
  | @array ps hps =>
    rw [Raw.texts?]
    induction ps generalizing ss with
    | nil =>
      rw [List.map_eq_nil_iff.1 hjs]
      rfl
    | cons p ps ih =>
      obtain ⟨s, ss, rfl, hs, hss⟩ := List.map_eq_cons_iff.1 hjs
      have hrest := ih (fun q hq => hps q (List.mem_cons_of_mem p hq)) hss
      have hp := hps p List.mem_cons_self
      rw [← hs] at hp
      rw [List.map_cons, List.mapM_cons, hp.text?_eq, hrest]
      rfl

end

end Raw.Denotes

/-- An object whose keys decode is read as its values under these keys. -/
theorem Raw.record?_of_keys {keys ks : List String} {ms : List (List Glyph × Raw)}
    (h : ms.map (fun m => Glyph.text? m.1) = ks.map some) :
    record? keys (.object ms) = some (ks.zip (ms.map Prod.snd)) := by
  rw [record?]
  induction ms generalizing ks with
  | nil =>
    rw [List.map_eq_nil_iff.1 h.symm]
    rfl
  | cons m ms ih =>
    obtain ⟨k, ks, rfl, hk, hks⟩ := List.map_eq_cons_iff.1 h.symm
    obtain ⟨gs, v⟩ := m
    have hkey : Glyph.text? gs = some k := hk.symm
    rw [List.mapM_cons, ih hks.symm]
    simp only [hkey]
    rfl

theorem Raw.record?_map_fst (keys : List String)
    {ps : List ((List Glyph × Raw) × String × Json)}
    (hkeys : ∀ p ∈ ps, Glyph.text? p.1.1 = some p.2.1) :
    Raw.record? keys (.object (ps.map Prod.fst)) = some (ps.map fun p => (p.2.1, p.1.2)) := by
  have hdecode : (ps.map Prod.fst).map (fun m => Glyph.text? m.1) =
      (ps.map fun p => p.2.1).map some := by
    rw [List.map_map, List.map_map]
    exact List.map_congr_left hkeys
  rw [Raw.record?_of_keys hdecode, List.map_map, List.zip_map']
  rfl

end Json

namespace Dialect

/-! ## Entries by how often their key is there -/

section
variable {α : Type} {ms : List (String × Raw)} {key : String} {read? : Raw → Option α}
  {missing? : Option α}

theorem length_filter_key (ms : List (String × Raw)) (key : String) :
    (ms.filter fun m => m.1 == key).length = (ms.map Prod.fst).count key := by
  rw [List.count, List.countP_map, List.countP_eq_length_filter]
  rfl

theorem entry_of_notMem (h : key ∉ ms.map Prod.fst) : entry? ms key read? missing? = missing? := by
  have hnone : (ms.filter fun m => m.1 == key) = [] := by
    rw [← List.length_eq_zero_iff, length_filter_key]
    exact List.count_eq_zero.2 h
  simp only [hnone, entry?]

theorem entry_of_count_eq_one (h : (ms.map Prod.fst).count key = 1) {v : Raw}
    (hv : (key, v) ∈ ms) : entry? ms key read? missing? = read? v := by
  have hmem : (key, v) ∈ ms.filter fun m => m.1 == key :=
    List.mem_filter.2 ⟨hv, beq_self_eq_true key⟩
  rw [← length_filter_key, List.length_eq_one_iff] at h
  obtain ⟨m, hm⟩ := h
  rw [hm, List.mem_singleton] at hmem
  simp only [hm, ← hmem, entry?]

theorem count_le_one_of_entry {a : α} (h : entry? ms key read? missing? = some a) :
    (ms.map Prod.fst).count key ≤ 1 := by
  rw [← length_filter_key]
  unfold entry? at h
  split at h
  · next hnone =>
    rw [hnone]
    exact Nat.zero_le 1
  · next hone =>
    rw [hone]
    exact Nat.le_refl 1
  · cases h

/-- A field whose key is there at most once, with a value that is read. -/
theorem entry_of_count_le_one {a b : α} (hcount : (ms.map Prod.fst).count key ≤ 1)
    (hread : ∀ v, (key, v) ∈ ms → read? v = some a) :
    entry? ms key read? (some b) = some (if key ∈ ms.map Prod.fst then a else b) := by
  by_cases hmem : key ∈ ms.map Prod.fst
  · obtain ⟨⟨k, v⟩, hv, rfl⟩ := List.mem_map.1 hmem
    have hone : (ms.map Prod.fst).count k = 1 :=
      Nat.le_antisymm hcount (List.count_pos_iff.2 hmem)
    rw [entry_of_count_eq_one hone hv, hread v hv, if_pos hmem]
  · rw [entry_of_notMem hmem, if_neg hmem]

/-- Under a key that an object has once is its value. -/
theorem exists_entry_eq {ps : List ((List Glyph × Raw) × String × Json)}
    {js : List (String × Json)} (key : String) {j : Json}
    (hvalues : ∀ p ∈ ps, p.1.2.Denotes p.2.2) (hperm : (ps.map Prod.snd).Perm js)
    (hj : (key, j) ∈ js) (hone : (js.map Prod.fst).count key = 1) :
    ∃ v, v.Denotes j ∧ ∀ {α : Type} (read? : Raw → Option α) (missing? : Option α),
      entry? (ps.map fun p => (p.2.1, p.1.2)) key read? missing? = read? v := by
  obtain ⟨p, hp, hpj⟩ := List.mem_map.1 (hperm.mem_iff.2 hj)
  have hcount : ((ps.map fun p => (p.2.1, p.1.2)).map Prod.fst).count key = 1 := by
    rw [← hone, ← (hperm.map Prod.fst).count_eq, List.map_map, List.map_map]
    rfl
  have hvalue := hvalues p hp
  rw [hpj] at hvalue
  refine ⟨p.1.2, hvalue, fun read? missing? => entry_of_count_eq_one hcount ?_⟩
  exact List.mem_map.2 ⟨p, hp, by rw [hpj]⟩

end

end Dialect

/-! ## Pairs of quotes -/

theorem QuotePair.quotePair?_eq {q : QuotePair} {v : Raw} (h : v.Denotes q.toJson) :
    Dialect.quotePair? v = some q := by
  rw [QuotePair.toJson] at h
  cases h with
  | @object ps _ hkeys hvalues hperm =>
    have hopen : ["open", "close"].count "open" = 1 := by decide
    have hclose : ["open", "close"].count "close" = 1 := by decide
    obtain ⟨v, hv, hopening⟩ :=
      Dialect.exists_entry_eq "open" hvalues hperm List.mem_cons_self hopen
    obtain ⟨w, hw, hclosing⟩ :=
      Dialect.exists_entry_eq "close" hvalues hperm (List.mem_cons_of_mem _ List.mem_cons_self)
        hclose
    rw [Dialect.quotePair?, Raw.record?_map_fst _ hkeys]
    simp only [Option.bind_eq_bind, Option.bind_some, hopening, hclosing, hv.char?_eq, hw.char?_eq]

/-! ## Whole documents -/

namespace Dialect

/-- The members of the document of a dialect. -/
def fields (d : Dialect) : List (String × Json) :=
  match d.toJson with
  | .object ms => ms
  | _ => []

theorem map_fst_fields (d : Dialect) : d.fields.map Prod.fst = keys := rfl

/-- The ANSI preset with those fields of a dialect whose keys are listed. -/
def chosen (d : Dialect) (ks : List String) : Dialect where
  name := if "name" ∈ ks then d.name else ansi.name
  quotes := if "identifier_quote" ∈ ks then d.quotes else ansi.quotes
  markers := if "parameter_type" ∈ ks then d.markers else ansi.markers
  namedSign := if "named_prefix" ∈ ks then d.namedSign else ansi.namedSign
  indexedSign := if "index_prefix" ∈ ks then d.indexedSign else ansi.indexedSign
  booleans := if "boolean_literals" ∈ ks then d.booleans else ansi.booleans
  backslashEscapes := if "backslash_escapes" ∈ ks then d.backslashEscapes else ansi.backslashEscapes
  bareWords := if "skip_tokens" ∈ ks then d.bareWords else ansi.bareWords

section
variable {d : Dialect} {ms : List (List Glyph × Raw)} {ks : List String}

theorem map_fst_zip_keys (hkeys : ms.map (fun m => Glyph.text? m.1) = ks.map some) :
    (ks.zip (ms.map Prod.snd)).map Prod.fst = ks := by
  have hlength := congrArg List.length hkeys
  rw [List.length_map, List.length_map] at hlength
  exact List.map_fst_zip (by rw [List.length_map, hlength])

theorem exists_of_mem_zip_keys (hkeys : ms.map (fun m => Glyph.text? m.1) = ks.map some)
    {k : String} {v : Raw} (h : (k, v) ∈ ks.zip (ms.map Prod.snd)) :
    ∃ m ∈ ms, Glyph.text? m.1 = some k ∧ m.2 = v := by
  have hmem : (some k, v) ∈ (ks.map some).zip (ms.map Prod.snd) := by
    rw [List.zip_map_left]
    exact List.mem_map.2 ⟨(k, v), h, rfl⟩
  rw [← hkeys, List.zip_map'] at hmem
  obtain ⟨m, hm, heq⟩ := List.mem_map.1 hmem
  exact ⟨m, hm, congrArg Prod.fst heq, congrArg Prod.snd heq⟩

/-- The keys are there at most once, and those of fields with the values of a dialect. -/
structure Gives (d : Dialect) (ms : List (List Glyph × Raw)) (ks : List String) : Prop where
  once : ∀ key ∈ keys, ks.count key ≤ 1
  values : ∀ m ∈ ms, ∀ k j, Glyph.text? m.1 = some k → (k, j) ∈ d.fields → m.2.Denotes j

theorem styleKey?_eq {v : Raw} {s : String} (h : v.Denotes (.string s)) : styleKey? v = some s := by
  cases h with
  | string hs => exact hs

theorem markers?_eq {v : Raw} {m : MarkerStyle} (h : v.Denotes (.string m.key)) :
    (styleKey? v).bind MarkerStyle.ofKey? = some m := by
  rw [styleKey?_eq h]
  exact m.ofKey?_key

theorem booleans?_eq {v : Raw} {b : BooleanStyle} (h : v.Denotes (.string b.key)) :
    (styleKey? v).bind BooleanStyle.ofKey? = some b := by
  rw [styleKey?_eq h]
  exact b.ofKey?_key

/-- Every field is read by itself. -/
theorem Gives.entry_eq (hgives : d.Gives ms ks)
    (hkeys : ms.map (fun m => Glyph.text? m.1) = ks.map some) {α : Type} {a : α}
    {read? : Raw → Option α} (key : String) {j : Json} (hj : (key, j) ∈ d.fields)
    (hread : ∀ v : Raw, v.Denotes j → read? v = some a) (b : α) :
    entry? (ks.zip (ms.map Prod.snd)) key read? (some b) = some (if key ∈ ks then a else b) := by
  have hfst := map_fst_zip_keys hkeys
  have hcount : ((ks.zip (ms.map Prod.snd)).map Prod.fst).count key ≤ 1 := by
    rw [hfst]
    refine hgives.once key ?_
    rw [← d.map_fst_fields]
    exact List.mem_map_of_mem hj
  have hvalue : ∀ v, (key, v) ∈ ks.zip (ms.map Prod.snd) → read? v = some a := by
    intro v hv
    obtain ⟨m, hm, hk, rfl⟩ := exists_of_mem_zip_keys hkeys hv
    exact hread m.2 (hgives.values m hm key j hk hj)
  have hentry := entry_of_count_le_one (b := b) hcount hvalue
  rwa [hfst] at hentry

theorem ofRaw?_eq_chosen (hkeys : ms.map (fun m => Glyph.text? m.1) = ks.map some)
    (hgives : d.Gives ms ks) : ofRaw? (.object ms) = some (d.chosen ks) := by
  have hname := hgives.entry_eq hkeys "name" (j := .string d.name) (by simp [fields, toJson])
    (fun v hv => hv.text?_eq) ansi.name
  have hquotes := hgives.entry_eq hkeys "identifier_quote" (j := d.quotes.toJson)
    (by simp [fields, toJson]) (fun v hv => QuotePair.quotePair?_eq hv) ansi.quotes
  have hmarkers := hgives.entry_eq hkeys "parameter_type" (j := .string d.markers.key)
    (by simp [fields, toJson]) (fun v hv => markers?_eq hv) ansi.markers
  have hnamed := hgives.entry_eq hkeys "named_prefix" (j := .string d.namedSign.toString)
    (by simp [fields, toJson]) (fun v hv => hv.char?_eq) ansi.namedSign
  have hindexed := hgives.entry_eq hkeys "index_prefix" (j := .string d.indexedSign.toString)
    (by simp [fields, toJson]) (fun v hv => hv.char?_eq) ansi.indexedSign
  have hbooleans := hgives.entry_eq hkeys "boolean_literals" (j := .string d.booleans.key)
    (by simp [fields, toJson]) (fun v hv => booleans?_eq hv) ansi.booleans
  have hescapes := hgives.entry_eq hkeys "backslash_escapes" (j := .bool d.backslashEscapes)
    (by simp [fields, toJson]) (fun v hv => hv.bool?_eq) ansi.backslashEscapes
  have hwords := hgives.entry_eq hkeys "skip_tokens" (j := .array (d.bareWords.map .string))
    (by simp [fields, toJson]) (fun v hv => hv.texts?_eq) ansi.bareWords
  rw [ofRaw?, Raw.record?_of_keys hkeys]
  simp only [Option.bind_eq_bind, Option.bind_some, hname, hquotes, hmarkers, hnamed, hindexed,
    hbooleans, hescapes, hwords]
  rfl

/-- A key of a field that is there twice is refused, whatever its values are. -/
theorem ofRaw?_eq_none (hkeys : ms.map (fun m => Glyph.text? m.1) = ks.map some)
    (htwice : ∃ key ∈ keys, 2 ≤ ks.count key) : ofRaw? (.object ms) = none := by
  refine Option.eq_none_iff_forall_ne_some.2 fun d hd => ?_
  rw [ofRaw?, Raw.record?_of_keys hkeys] at hd
  simp only [Option.bind_eq_bind, Option.bind_some, Option.bind_eq_some_iff] at hd
  obtain ⟨_, hname, _, hquotes, _, hmarkers, _, hnamed, _, hindexed, _, hbooleans, _, hescapes, _,
    hwords, -⟩ := hd
  have honce : ∀ key ∈ keys, ks.count key ≤ 1 := by
    intro key hkey
    rw [← map_fst_zip_keys hkeys]
    simp only [keys, List.mem_cons, List.not_mem_nil, or_false] at hkey
    rcases hkey with rfl | rfl | rfl | rfl | rfl | rfl | rfl | rfl
    · exact count_le_one_of_entry hname
    · exact count_le_one_of_entry hquotes
    · exact count_le_one_of_entry hmarkers
    · exact count_le_one_of_entry hnamed
    · exact count_le_one_of_entry hindexed
    · exact count_le_one_of_entry hbooleans
    · exact count_le_one_of_entry hescapes
    · exact count_le_one_of_entry hwords
  obtain ⟨key, hkey, hcount⟩ := htwice
  have hle := honce key hkey
  omega

/-- A document is an object with white space anywhere, with any keys in any order. Where no key of a
field is there twice and the keys of fields have the values of a dialect, it is read as the ANSI
preset with these fields of the dialect. Where a key of a field is there twice, it is refused. -/
theorem read_partial (d : Dialect) {s x : List Char} {ms : List (List Glyph × Raw)}
    {ks : List String} (hs : Raw.Spelled s (.object ms)) (hx : Spaces x)
    (hkeys : ms.map (fun m => Glyph.text? m.1) = ks.map some) :
    (d.Gives ms ks → read (String.ofList (s ++ x)) = .ok (d.chosen ks)) ∧
    ((∃ key ∈ keys, 2 ≤ ks.count key) →
      read (String.ofList (s ++ x)) = .error .malformedDialect) := by
  constructor
  · intro hgives
    rw [read, hs.read?_eq hx, Option.bind_some, ofRaw?_eq_chosen hkeys hgives]
  · intro htwice
    rw [read, hs.read?_eq hx, Option.bind_some, ofRaw?_eq_none hkeys htwice]

end

/-- An unknown key twice, a key with an escape, and white space. -/
theorem read_partial_unknown_twice :
    let d : Dialect := { ansi with name := "x" }
    let s := "\x7b\"a\" : \x7b \x7d,\"\\u006eame\":\"x\" , \"a\":null\x7d"
    let ms : List (List Glyph × Raw) := [([.char 'a'], .object []),
      ([.unit 110, .char 'a', .char 'm', .char 'e'], .string [.char 'x']), ([.char 'a'], .null)]
    let ks := ["a", "name", "a"]
    Raw.Spelled s.toList (.object ms) ∧ Spaces [' ', '\n'] ∧
      ms.map (fun m => Glyph.text? m.1) = ks.map some ∧ d.Gives ms ks ∧
      read (String.ofList (s.toList ++ [' ', '\n'])) = .ok d := by
  intro d s ms ks
  have hnone : Spaces [] := Json.spaces_nil
  have hblank : Spaces [' '] := Json.spaces_of_all (by decide)
  have hx : Spaces [' ', '\n'] := Json.spaces_of_all (by decide)
  let es : List Entry := [
    ⟨[], ['a'], [.char 'a'], [' '], " \x7b \x7d".toList, .object [], []⟩,
    ⟨[], "\\u006eame".toList, [.unit 110, .char 'a', .char 'm', .char 'e'], [], "\"x\"".toList,
      .string [.char 'x'], [' ']⟩,
    ⟨[' '], ['a'], [.char 'a'], [], "null".toList, .null, []⟩]
  have hvalues : ∀ e ∈ es, Raw.Spelled e.text e.tree := by
    refine List.forall_mem_cons.2 ⟨.space rfl ?_,
      List.forall_mem_cons.2 ⟨?_, List.forall_mem_singleton.2 .null⟩⟩
    · have hformed : ∀ e ∈ ([] : List Entry), e.WellFormed :=
        fun _ he => absurd he List.not_mem_nil
      exact .object hblank hformed fun _ he => absurd he List.not_mem_nil
    · exact .string (Glyph.spelledAll_plain (s := ['x']) (by decide))
  have hformed : ∀ e ∈ es, e.WellFormed := by
    have ha : Glyph.SpelledAll ['a'] [.char 'a'] := Glyph.spelledAll_plain (s := ['a']) (by decide)
    have hname : Glyph.SpelledAll "\\u006eame".toList
        [.unit 110, .char 'a', .char 'm', .char 'e'] :=
      .cons (.code (k := 0) (l := 0) (m := 6) (n := 14) ⟨by decide, by decide⟩
        ⟨by decide, by decide⟩ ⟨by decide, by decide⟩ ⟨by decide, by decide⟩)
        (Glyph.spelledAll_plain (s := ['a', 'm', 'e']) (by decide))
    exact List.forall_mem_cons.2 ⟨⟨hnone, ha, hblank, hnone⟩,
      List.forall_mem_cons.2 ⟨⟨hnone, hname, hnone, hblank⟩,
      List.forall_mem_singleton.2 ⟨hblank, ha, hnone, hnone⟩⟩⟩
  have hs : Raw.Spelled s.toList (.object ms) := by
    have htext : '\x7b' :: ([] ++ ([','].intercalate (es.map Entry.written) ++ ['\x7d'])) =
        s.toList := by decide
    rw [← htext]
    exact .object hnone hformed hvalues
  have hkeys : ms.map (fun m => Glyph.text? m.1) = ks.map some := by decide
  have hgives : d.Gives ms ks := by
    refine ⟨fun key hkey => ?_, fun m hm k j hk hj => ?_⟩
    · simp only [keys, List.mem_cons, List.not_mem_nil, or_false] at hkey
      rcases hkey with rfl | rfl | rfl | rfl | rfl | rfl | rfl | rfl <;> decide
    · have hmem : k ∈ keys := List.mem_map_of_mem (f := Prod.fst) hj
      simp only [ms, List.mem_cons, List.not_mem_nil, or_false] at hm
      rcases hm with rfl | rfl | rfl
      · obtain rfl : "a" = k := Option.some.inj hk
        exact absurd hmem (by decide)
      · obtain rfl : "name" = k := Option.some.inj hk
        have hvalue : j = .string d.name := by simpa [fields, toJson] using hj
        rw [hvalue]
        exact .string rfl
      · obtain rfl : "a" = k := Option.some.inj hk
        exact absurd hmem (by decide)
  exact ⟨hs, hx, hkeys, hgives, (read_partial d hs hx hkeys).1 hgives⟩

end Dialect

end PortableSql
