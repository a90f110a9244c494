import LineLogger.Config
import LineLogger.Logger.Builder
import LineLogger.Proofs.Json.Objects
import Mathlib.Data.List.Nodup

namespace LineLogger

open Json
open Text.Utf8 (encode)

namespace Json

variable {α ε ρ : Type} {read : Bytes → Read α} {text : String} {w v w' : List Char} {a : α}

theorem ofString_of_toList (ht : text.toList = w ++ v ++ w') :
    Text.Utf8.ofString text = encode w ++ (encode v ++ encode w') := by
  rw [Text.Utf8.ofString, ht, encode_append, encode_append, List.append_assoc]

theorem Blanks.ends (hw : Blanks w) : Ends (encode w) := by
  have := ends_blanks hw ends_nil
  rwa [List.append_nil] at this

theorem document_reads (h : Reads read v a) (hw : Blanks w) (hw' : Blanks w')
    (ht : text.toList = w ++ v ++ w') : document read text = .ok a := by
  have hb : skipBlank (encode w') = [] := by
    have := skipBlank_blanks hw' []
    rwa [List.append_nil] at this
  rw [document, ofString_of_toList ht, h w _ hw hw'.ends]
  dsimp only
  rw [hb]

theorem read_of_document (h : document read text = .ok a) :
    ∃ r, read (Text.Utf8.ofString text) = .ok (a, r) := by
  rw [document] at h
  split at h
  · cases h
  · next b r hr =>
    split at h
    · cases h
      exact ⟨r, hr⟩
    · cases h

theorem exists_of_forall₂ {β γ : Type} {R : β → γ → Prop} {xs : List β} {ys : List γ}
    (h : List.Forall₂ R xs ys) {x : β} (hx : x ∈ xs) : ∃ y ∈ ys, R x y := by
  induction h with
  | nil => cases hx
  | cons hr _ ih =>
    obtain rfl | hx := List.mem_cons.mp hx
    · exact ⟨_, List.mem_cons_self, hr⟩
    · obtain ⟨y, hy, hr⟩ := ih hx
      exact ⟨y, List.mem_cons_of_mem _ hy, hr⟩

theorem Single.eq {keys : List String} {key : ε → String} {es : List ε} {e e' : ε}
    (h : Single keys key es) (he : e ∈ es) (he' : e' ∈ es) (hk : key e ∈ keys)
    (hkk : key e' = key e) : e = e' := by
  rw [Single, List.filter_map] at h
  apply List.inj_on_of_nodup_map h
  · exact List.mem_filter.mpr ⟨he, by simpa using hk⟩
  · exact List.mem_filter.mpr ⟨he', by simpa [hkk] using hk⟩
  · exact hkk.symm

section Fields

variable {set : ε → ρ → ρ} {get : ρ → α} {gives : ε → Option α} {keys : List String}
  {key : ε → String} {k : String} {es : List ε} {e : ε} {x : ρ}

theorem field_foldl (hset : ∀ e x, get (set e x) = (gives e).getD (get x))
    (hu : ∀ e ∈ es, ∀ b, gives e = some b → b = a)
    (ha : get x = a ∨ ∃ e ∈ es, gives e = some a) :
    get (es.foldl (fun x e => set e x) x) = a := by
  induction es generalizing x with
  | nil => simpa using ha
  | cons e es ih =>
    apply ih (fun e' he => hu e' (List.mem_cons_of_mem _ he))
    rw [hset]
    cases hg : gives e with
    | none =>
      obtain ha | ⟨e', he', ha⟩ := ha
      · exact .inl ha
      · obtain rfl | he' := List.mem_cons.mp he'
        · rw [hg] at ha
          cases ha
        · exact .inr ⟨e', he', ha⟩
    | some b => exact .inl (hu e List.mem_cons_self b hg)

theorem field_of_mem (hset : ∀ e x, get (set e x) = (gives e).getD (get x))
    (hgives : ∀ e b, gives e = some b → key e = k) (hk : k ∈ keys) (h : Single keys key es)
    (he : e ∈ es) (ha : gives e = some a) : get (es.foldl (fun x e => set e x) x) = a := by
  refine field_foldl hset (fun e' he' b hb => ?_) (.inr ⟨e, he, ha⟩)
  have hke := hgives e a ha
  have heq := h.eq he he' (hke ▸ hk) ((hgives e' b hb).trans hke.symm)
  rw [← heq, ha] at hb
  exact (Option.some.inj hb).symm

theorem field_of_none (hset : ∀ e x, get (set e x) = (gives e).getD (get x))
    (h : ∀ e ∈ es, gives e = none) : get (es.foldl (fun x e => set e x) x) = get x := by
  refine field_foldl hset (fun e he b hb => ?_) (.inl rfl)
  rw [h e he] at hb
  cases hb

end Fields

end Json

namespace Verbosity

inductive Entry
  | level (n : Int32)
  | quiet (b : Bool)
  | other (key : String)

namespace Entry

def key : Entry → String
  | .level _ => "level"
  | .quiet _ => "quiet"
  | .other k => k

def set (e : Entry) (v : Verbosity) : Verbosity :=
  match e with
  | .level n => { v with level := n }
  | .quiet b => { v with quiet := b }
  | .other _ => v

/-- How a member is written. A level is any integer of 32 bits, but minus zero is a float. -/
inductive Spells : Entry → Pair → Prop
  | level {n : Int32} {m : Pair} (hk : Written "level".toList m.1) (hv : Literal n.toInt m.2) :
      Spells (.level n) m
  | quiet {b : Bool} {m : Pair} (hk : Written "quiet".toList m.1)
      (hv : m.2 = if b then ['t', 'r', 'u', 'e'] else ['f', 'a', 'l', 's', 'e']) :
      Spells (.quiet b) m
  | other {key : String} {m : Pair} (hk : Written key.toList m.1) (hv : Derives .value m.2)
      (hn : key ∉ ["level", "quiet"]) : Spells (.other key) m

theorem Spells.sets {e : Entry} {m : Pair} (h : e.Spells m) : Sets fields m e.key e.set := by
  cases h with
  | level hk hv =>
    exact .known hk rfl (Reads.of hv.reads _ _ _)
  | @quiet b m hk hv =>
    have hr : Reads readBool m.2 b := by
      rw [hv]
      cases b
      · exact reads_false
      · exact reads_true
    exact .known hk rfl (hr.of _ _ _)
  | other hk hv hn => exact .unknown hk (find?_eq_none hn) hv

end Entry

variable {es : List Entry} {n : Int32} {b : Bool}

theorem agrees_fields : ∀ f ∈ fields, Agrees f.read :=
  List.forall_mem_cons.mpr ⟨readInt32_agrees.of _ _ _,
    List.forall_mem_singleton.mpr (readBool_agrees.of _ _ _)⟩

def ofEntries (es : List Entry) : Verbosity := es.foldl (fun v e => e.set v) {}

abbrev Single (es : List Entry) : Prop := Json.Single ["level", "quiet"] Entry.key es

theorem reads_object {cs : List Char} (h : Object Entry.Spells es cs) (hs : Single es) :
    Reads readJson cs (ofEntries es) := h.reads (fun _ _ h => h.sets) hs {} "Verbosity"

def Entry.level? : Entry → Option Int32
  | .level n => some n
  | .quiet _ => none
  | .other _ => none

def Entry.quiet? : Entry → Option Bool
  | .level _ => none
  | .quiet b => some b
  | .other _ => none

theorem Entry.level_set (e : Entry) (v : Verbosity) : (e.set v).level = e.level?.getD v.level := by
  cases e <;> rfl

theorem Entry.quiet_set (e : Entry) (v : Verbosity) : (e.set v).quiet = e.quiet?.getD v.quiet := by
  cases e <;> rfl

theorem Entry.key_of_level? (e : Entry) (n : Int32) (h : e.level? = some n) : e.key = "level" := by
  cases e with
  | level n => rfl
  | quiet b => cases h
  | other k => cases h

theorem Entry.key_of_quiet? (e : Entry) (b : Bool) (h : e.quiet? = some b) : e.key = "quiet" := by
  cases e with
  | level n => cases h
  | quiet b => rfl
  | other k => cases h

theorem level_ofEntries (h : Single es) (hn : .level n ∈ es) : (ofEntries es).level = n :=
  field_of_mem Entry.level_set Entry.key_of_level? (by decide) h hn rfl

theorem quiet_ofEntries (h : Single es) (hb : .quiet b ∈ es) : (ofEntries es).quiet = b :=
  field_of_mem Entry.quiet_set Entry.key_of_quiet? (by decide) h hb rfl

theorem level_ofEntries_default (h : ∀ n, .level n ∉ es) : (ofEntries es).level = 0 := by
  refine field_of_none Entry.level_set fun e he => ?_
  cases e with
  | level n => exact absurd he (h n)
  | quiet b => rfl
  | other k => rfl

theorem quiet_ofEntries_default (h : ∀ b, .quiet b ∉ es) : (ofEntries es).quiet = false := by
  refine field_of_none Entry.quiet_set fun e he => ?_
  cases e with
  | level n => rfl
  | quiet b => exact absurd he (h b)
  | other k => rfl

end Verbosity

namespace Config

inductive Entry
  | verbosity (es : List Verbosity.Entry)
  | timeFormat (template : String)
  | other (key : String)

namespace Entry

def key : Entry → String
  | .verbosity _ => "verbosity"
  | .timeFormat _ => "time_format"
  | .other k => k

def set (e : Entry) (c : Config) : Config :=
  match e with
  | .verbosity es => { c with verbosity := Verbosity.ofEntries es }
  | .timeFormat s => { c with timeFormat := ⟨s⟩ }
  | .other _ => c

/-- How a member is written. The string of a template denotes a text, so no surrogate in it stands
alone. -/
inductive Spells : Entry → Pair → Prop
  | verbosity {es : List Verbosity.Entry} {m : Pair} (hk : Written "verbosity".toList m.1)
      (hv : Object Verbosity.Entry.Spells es m.2) (hs : Verbosity.Single es) :
      Spells (.verbosity es) m
  | timeFormat {s : String} {k cs : List Char} (hk : Written "time_format".toList k)
      (hv : Written s.toList cs) : Spells (.timeFormat s) (k, '"' :: cs ++ ['"'])
  | other {key : String} {m : Pair} (hk : Written key.toList m.1) (hv : Derives .value m.2)
      (hn : key ∉ ["verbosity", "time_format"]) : Spells (.other key) m

theorem Spells.sets {e : Entry} {m : Pair} (h : e.Spells m) : Sets fields m e.key e.set := by
  cases h with
  | verbosity hk hv hs => exact .known hk rfl ((Verbosity.reads_object hv hs).of _ _ _)
  | timeFormat hk hv =>
    have hr := hv.reads.map Time.Format.mk
    exact .known hk rfl (Reads.of hr _ _ _)
  | other hk hv hn => exact .unknown hk (find?_eq_none hn) hv

end Entry

abbrev Single (es : List Entry) : Prop := Json.Single ["verbosity", "time_format"] Entry.key es

/-- The text of a document that gives each field at most once, white space around it included. -/
inductive Document (es : List Entry) (text : String) : Prop
  | mk {w v w' : List Char} (hw : Blanks w) (hw' : Blanks w') (ho : Object Entry.Spells es v)
      (hs : Single es) (ht : text.toList = w ++ v ++ w')

def GivesLevel (es : List Entry) (n : Int32) : Prop := ∃ vs, .verbosity vs ∈ es ∧ .level n ∈ vs

def GivesQuiet (es : List Entry) (b : Bool) : Prop := ∃ vs, .verbosity vs ∈ es ∧ .quiet b ∈ vs

def GivesFormat (es : List Entry) (s : String) : Prop := .timeFormat s ∈ es

structure Holds (c : Config) (es : List Entry) : Prop where
  level : ∀ n, GivesLevel es n → c.verbosity.level = n
  levelDefault : (∀ n, ¬GivesLevel es n) → c.verbosity.level = 0
  quiet : ∀ b, GivesQuiet es b → c.verbosity.quiet = b
  quietDefault : (∀ b, ¬GivesQuiet es b) → c.verbosity.quiet = false
  format : ∀ s, GivesFormat es s → c.timeFormat.template = s
  formatDefault : (∀ s, ¬GivesFormat es s) → c.timeFormat = {}

def ofEntries (es : List Entry) : Config := es.foldl (fun c e => e.set c) {}

namespace Entry

def verbosity? : Entry → Option Verbosity
  | .verbosity vs => some (Verbosity.ofEntries vs)
  | .timeFormat _ => none
  | .other _ => none

def timeFormat? : Entry → Option Time.Format
  | .verbosity _ => none
  | .timeFormat s => some ⟨s⟩
  | .other _ => none

theorem verbosity_set (e : Entry) (c : Config) :
    (e.set c).verbosity = e.verbosity?.getD c.verbosity := by
  cases e <;> rfl

theorem timeFormat_set (e : Entry) (c : Config) :
    (e.set c).timeFormat = e.timeFormat?.getD c.timeFormat := by
  cases e <;> rfl

theorem key_of_verbosity? (e : Entry) (v : Verbosity) (h : e.verbosity? = some v) :
    e.key = "verbosity" := by
  cases e with
  | verbosity vs => rfl
  | timeFormat s => cases h
  | other k => cases h

theorem key_of_timeFormat? (e : Entry) (f : Time.Format) (h : e.timeFormat? = some f) :
    e.key = "time_format" := by
  cases e with
  | verbosity vs => cases h
  | timeFormat s => rfl
  | other k => cases h

end Entry

variable {es es' : List Entry} {vs : List Verbosity.Entry} {text text' : String} {c : Config}

theorem verbosity_ofEntries (h : Single es) (hv : .verbosity vs ∈ es) :
    (ofEntries es).verbosity = Verbosity.ofEntries vs :=
  field_of_mem Entry.verbosity_set Entry.key_of_verbosity? (by decide) h hv rfl

theorem timeFormat_ofEntries {s : String} (h : Single es) (hs : .timeFormat s ∈ es) :
    (ofEntries es).timeFormat = ⟨s⟩ :=
  field_of_mem Entry.timeFormat_set Entry.key_of_timeFormat? (by decide) h hs rfl

theorem verbosity_ofEntries_default (h : ∀ vs, .verbosity vs ∉ es) :
    (ofEntries es).verbosity = {} := by
  refine field_of_none Entry.verbosity_set fun e he => ?_
  cases e with
  | verbosity vs => exact absurd he (h vs)
  | timeFormat s => rfl
  | other k => rfl

theorem timeFormat_ofEntries_default (h : ∀ s, .timeFormat s ∉ es) :
    (ofEntries es).timeFormat = {} := by
  refine field_of_none Entry.timeFormat_set fun e he => ?_
  cases e with
  | verbosity vs => rfl
  | timeFormat s => exact absurd he (h s)
  | other k => rfl

theorem verbosity_ofEntries_cases (h : Single es) :
    (∃ vs, .verbosity vs ∈ es ∧ (ofEntries es).verbosity = Verbosity.ofEntries vs) ∨
      (ofEntries es).verbosity = {} := by
  by_cases hvs : ∃ vs, .verbosity vs ∈ es
  · obtain ⟨vs, hvs⟩ := hvs
    exact .inl ⟨vs, hvs, verbosity_ofEntries h hvs⟩
  · exact .inr (verbosity_ofEntries_default fun vs hm => hvs ⟨vs, hm⟩)

theorem holds_ofEntries (h : Single es)
    (hv : ∀ vs, .verbosity vs ∈ es → Verbosity.Single vs) : Holds (ofEntries es) es := by
  refine ⟨?_, fun hn => ?_, ?_, fun hb => ?_, ?_, timeFormat_ofEntries_default⟩
  · rintro n ⟨vs, hvs, hn⟩
    rw [verbosity_ofEntries h hvs]
    exact Verbosity.level_ofEntries (hv vs hvs) hn
  · obtain ⟨vs, hvs, he⟩ | he := verbosity_ofEntries_cases h
    · rw [he]
      exact Verbosity.level_ofEntries_default fun n hm => hn n ⟨vs, hvs, hm⟩
    · rw [he]
  · rintro b ⟨vs, hvs, hb⟩
    rw [verbosity_ofEntries h hvs]
    exact Verbosity.quiet_ofEntries (hv vs hvs) hb
  · obtain ⟨vs, hvs, he⟩ | he := verbosity_ofEntries_cases h
    · rw [he]
      exact Verbosity.quiet_ofEntries_default fun b hm => hb b ⟨vs, hvs, hm⟩
    · rw [he]
  · intro s hs
    rw [timeFormat_ofEntries h hs]

theorem Holds.eq {c' : Config} (h : c.Holds es) (h' : c'.Holds es')
    (hl : ∀ n, GivesLevel es n ↔ GivesLevel es' n) (hq : ∀ b, GivesQuiet es b ↔ GivesQuiet es' b)
    (hf : ∀ s, GivesFormat es s ↔ GivesFormat es' s) : c = c' := by
  have hlevel : c.verbosity.level = c'.verbosity.level := by
    by_cases hn : ∃ n, GivesLevel es n
    · obtain ⟨n, hn⟩ := hn
      rw [h.level n hn, h'.level n ((hl n).mp hn)]
    · rw [h.levelDefault fun n hg => hn ⟨n, hg⟩,
        h'.levelDefault fun n hg => hn ⟨n, (hl n).mpr hg⟩]
  have hquiet : c.verbosity.quiet = c'.verbosity.quiet := by
    by_cases hb : ∃ b, GivesQuiet es b
    · obtain ⟨b, hb⟩ := hb
      rw [h.quiet b hb, h'.quiet b ((hq b).mp hb)]
    · rw [h.quietDefault fun b hg => hb ⟨b, hg⟩,
        h'.quietDefault fun b hg => hb ⟨b, (hq b).mpr hg⟩]
  have hformat : c.timeFormat = c'.timeFormat := by
    by_cases hs : ∃ s, GivesFormat es s
    · obtain ⟨s, hs⟩ := hs
      exact congrArg Time.Format.mk ((h.format s hs).trans (h'.format s ((hf s).mp hs)).symm)
    · rw [h.formatDefault fun s hg => hs ⟨s, hg⟩,
        h'.formatDefault fun s hg => hs ⟨s, (hf s).mpr hg⟩]
  exact congr_arg₂ Config.mk (congr_arg₂ Verbosity.mk hlevel hquiet) hformat

theorem Document.ofJson (h : Document es text) :
    ofJson text = .ok (ofEntries es) ∧ (ofEntries es).Holds es := by
  obtain ⟨hw, hw', ho, hs, ht⟩ := h
  refine ⟨document_reads ?_ hw hw' ht, holds_ofEntries hs fun vs hv => ?_⟩
  · exact ho.reads (fun e m h => h.sets) hs {} "LoggerConfig"
  · obtain ⟨hm, he⟩ := ho
    obtain ⟨m, -, hm⟩ := exists_of_forall₂ he hv
    cases hm with
    | verbosity hk ho hs => exact hs

theorem load_of_ofJson (h : Config.ofJson text = .ok c) : load text =
    if c.verbosity.level < -1 then .error (.invalidConfiguration "verbosity"
      s!"level {c.verbosity.level} is below {Verbosity.quietThreshold}") else .ok c := by
  rw [load, h]
  dsimp only
  rw [validate, Verbosity.quietThreshold]
  split <;> rfl

theorem load_eq_ok_iff (h : Config.ofJson text = .ok c) :
    load text = .ok c ↔ -1 ≤ c.verbosity.level := by
  rw [load_of_ofJson h, ← Int32.not_lt]
  split
  · next hl => exact iff_of_false nofun (not_not.mpr hl)
  · next hl => exact iff_of_true rfl hl

theorem load_invalid_iff (h : Config.ofJson text = .ok c) :
    (∃ part reason, load text = .error (.invalidConfiguration part reason)) ↔
      c.verbosity.level < -1 := by
  rw [load_of_ofJson h]
  split
  · next hl => exact iff_of_true ⟨_, _, rfl⟩ hl
  · next hl =>
    refine iff_of_false ?_ hl
    rintro ⟨_, _, he⟩
    cases he

theorem load_ne_json (h : Config.ofJson text = .ok c) (e : Json.Error) :
    load text ≠ .error (.json e) := by
  rw [load_of_ofJson h]
  split <;> nofun

theorem ofJson_of_load (h : load text = .ok c) :
    ofJson text = .ok c ∧ -1 ≤ c.verbosity.level := by
  cases hj : ofJson text with
  | error e =>
    rw [load, hj] at h
    cases h
  | ok x =>
    rw [load_of_ofJson hj] at h
    split at h
    · cases h
    · next hl =>
      cases h
      exact ⟨rfl, Int32.not_lt.mp hl⟩

/-- The text of an object in which a known key comes twice, or does so in the object that stands
for the verbosity. -/
inductive RepeatsField : List Char → Prop
  | outer {v : List Char} (h : Repeats ["verbosity", "time_format"] v) : RepeatsField v
  | inner {ms : List Pair} {m : Pair} {cs : List Char} (hm : Members true ms cs)
      (hs : ∀ m ∈ ms, IsMember m) (h : m ∈ ms) (hk : Written "verbosity".toList m.1)
      (hr : Repeats ["level", "quiet"] m.2) : RepeatsField ('\x7b' :: cs)

theorem agrees_fields : ∀ f ∈ fields, Agrees f.read := by
  have hv := readRecord_agrees (v := {}) Verbosity.agrees_fields "Verbosity"
  have hf : Agrees Time.Format.readJson := readText_agrees.map Time.Format.mk
  exact List.forall_mem_cons.mpr ⟨hv.of _ _ _, List.forall_mem_singleton.mpr (hf.of _ _ _)⟩

theorem RepeatsField.ofJson {w v t : List Char} (h : RepeatsField v) (hw : Blanks w)
    (ht : text.toList = w ++ v ++ t) : ∃ e, Config.ofJson text = .error e := by
  cases hr : Config.ofJson text with
  | error e => exact ⟨e, rfl⟩
  | ok c =>
    obtain ⟨r, hr⟩ := read_of_document hr
    rw [ofString_of_toList ht] at hr
    cases h with
    | outer h => exact absurd hr (not_reads_of_repeats agrees_fields h hw)
    | inner hm hs h hk hr' =>
      rw [readJson, readRecord_object hw] at hr
      obtain ⟨u, s, set, hu, hread⟩ :=
        (taken_of_readMembers agrees_fields hm hs hr).read _ h "verbosity" _ hk rfl
      obtain ⟨⟨x, t⟩, hx, -⟩ := exists_of_map_ok hread
      exact absurd hx (not_reads_of_repeats Verbosity.agrees_fields hr' hu)

end Config

namespace Builder

def Call.setsThreshold : Call → Bool
  | .verbosity _ => true
  | .config _ => true
  | .timeFormat _ => false
  | .clock _ => false
  | .sink _ => false
  | .hook _ => false

theorem threshold_foldl {calls : List Call} (h : ∀ x ∈ calls, x.setsThreshold = false)
    (b : Builder) : (calls.foldl apply b).threshold = b.threshold := by
  induction calls generalizing b with
  | nil => rfl
  | cons x calls ih =>
    have hx := h x List.mem_cons_self
    rw [List.foldl_cons, ih (fun y hy => h y (List.mem_cons_of_mem _ hy))]
    cases x with
    | verbosity v => cases hx
    | config c => cases hx
    | _ => rfl

theorem threshold_build_config {before after : List Call} (c : Config)
    (h : ∀ x ∈ after, x.setsThreshold = false) :
    (ofCalls (before ++ .config c :: after)).build.threshold = c.verbosity.threshold := by
  change (ofCalls (before ++ .config c :: after)).threshold = _
  rw [ofCalls, List.foldl_append, List.foldl_cons, threshold_foldl h]
  rfl

end Builder

theorem Verbosity.threshold_ge {v : Verbosity} (h : -1 ≤ v.level) :
    -1 ≤ v.threshold ∧ (v.quiet = true → v.threshold = -1) := by
  rw [threshold, quietThreshold]
  cases v.quiet with
  | true => exact ⟨Int32.le_refl _, fun _ => rfl⟩
  | false => exact ⟨h, nofun⟩

namespace Config

/-- A document with a key that is partly escaped, and a member that is of no field. -/
def tacit : String := " \x7b\"x\": [1e9], \"verbosity\":\x7b\"\\u0071uiet\" :true\x7d\x7d"

def tacitEntries : List Entry := [.other "x", .verbosity [.quiet true]]

theorem derives_billions : Derives .value "[1e9]".toList := by
  have hw : Whole ['1'] := .digits rfl (by decide) (by decide)
  have he : Exponent ['e', '9'] := .some (.inl rfl) .none (by decide) (by decide)
  have hn : Unsigned (['1'] ++ [] ++ ['e', '9']) := .mk hw .none he
  exact .nested .list (.first .none blanks_nil (.scalar (.positive hn)) (.last .list blanks_nil))

theorem object_escaped :
    Object Verbosity.Entry.Spells [.quiet true] "\x7b\"\\u0071uiet\" :true\x7d".toList := by
  have hq : Spelled 'q' "\\u0071".toList :=
    .code (.mk (k := 0) (l := 0) (m := 7) (n := 1) rfl rfl rfl rfl) (by decide)
  have hs : Written "uiet".toList "uiet".toList := .plain (by decide)
  have hb : Blanks [' '] := by decide
  have hm : Members true [("\\u0071uiet".toList, "true".toList)]
      "\"\\u0071uiet\" :true\x7d".toList :=
    .first (.mk blanks_nil hb) blanks_nil (.last false blanks_nil)
  exact .mk hm (.cons (.quiet (.cons hq hs) rfl) .nil)

theorem document_tacit : Document tacitEntries tacit := by
  have hb : Blanks [' '] := by decide
  have hx : Entry.Spells (.other "x") ("x".toList, "[1e9]".toList) :=
    .other (.plain (by decide)) derives_billions (by decide)
  have hv : Entry.Spells (.verbosity [.quiet true])
      ("verbosity".toList, "\x7b\"\\u0071uiet\" :true\x7d".toList) :=
    .verbosity (.plain (by decide)) object_escaped (by decide)
  have ho := Object.mk (.first (.mk blanks_nil blanks_nil) hb <| .more blanks_nil
    (.mk hb blanks_nil) blanks_nil (.last false blanks_nil)) (.cons hx (.cons hv .nil))
  exact .mk hb blanks_nil ho (by decide) rfl

def twofold : String := "\x7b\"verbosity\":[1e9],\"verbosity\":[1e9]\x7d"

theorem repeatsField_twofold : RepeatsField twofold.toList := by
  have hk : Written "verbosity".toList "verbosity".toList := .plain (by decide)
  have hm : ∀ m ∈ [("verbosity".toList, "[1e9]".toList), ("verbosity".toList, "[1e9]".toList)],
      IsMember m := by
    have hm : IsMember ("verbosity".toList, "[1e9]".toList) := ⟨⟨_, hk⟩, derives_billions⟩
    exact List.forall_mem_cons.mpr ⟨hm, List.forall_mem_singleton.mpr hm⟩
  exact .outer (.mk (.first (.mk blanks_nil blanks_nil) blanks_nil <| .more blanks_nil
    (.mk blanks_nil blanks_nil) blanks_nil (.last false blanks_nil)) hm (.head _) (.refl _) hk hk)

/-- Documents give each field its value or its default, whatever their order, blanks and other
members. A field that comes twice is refused, and so is a level below that of quiet. -/
theorem documents_are_read :
    (∀ text es, Document es text → ∃ c : Config, ofJson text = .ok c ∧ c.Holds es ∧
      (load text = .ok c ↔ -1 ≤ c.verbosity.level) ∧
      ((∃ part reason, load text = .error (.invalidConfiguration part reason)) ↔
        c.verbosity.level < -1)) ∧
    (∀ text text' es es', Document es text → Document es' text' →
      (∀ n, GivesLevel es n ↔ GivesLevel es' n) → (∀ b, GivesQuiet es b ↔ GivesQuiet es' b) →
      (∀ s, GivesFormat es s ↔ GivesFormat es' s) →
        ofJson text = ofJson text' ∧ load text = load text') ∧
    (∀ (text : String) (w v t : List Char), Blanks w → RepeatsField v →
      text.toList = w ++ v ++ t → ∃ e, ofJson text = .error e ∧ load text = .error (.json e)) ∧
    (∀ text c, load text = .ok c → ofJson text = .ok c ∧ ∀ g : Logger, g = .ofConfig c ∨
      (∃ before after, g = (Builder.ofCalls (before ++ .config c :: after)).build ∧
        ∀ x ∈ after, x.setsThreshold = false) →
          -1 ≤ g.threshold ∧ (c.verbosity.quiet = true → g.threshold = -1)) := by
  refine ⟨fun text es h => ?_, fun text text' es es' h h' hl hq hf => ?_,
    fun text w v t hw hr ht => ?_, fun text c h => ?_⟩
  · obtain ⟨hj, hh⟩ := h.ofJson
    exact ⟨_, hj, hh, load_eq_ok_iff hj, load_invalid_iff hj⟩
  · obtain ⟨hj, hh⟩ := h.ofJson
    obtain ⟨hj', hh'⟩ := h'.ofJson
    have he := hh.eq hh' hl hq hf
    rw [load, load, hj, hj', he]
    exact ⟨rfl, rfl⟩
  · obtain ⟨e, he⟩ := hr.ofJson hw ht
    refine ⟨e, he, ?_⟩
    rw [load, he]
  · obtain ⟨hj, hl⟩ := ofJson_of_load h
    refine ⟨hj, fun g hg => ?_⟩
    have ht : g.threshold = c.verbosity.threshold := by
      obtain rfl | ⟨before, after, rfl, ha⟩ := hg
      · rfl
      · exact Builder.threshold_build_config c ha
    rw [ht]
    exact Verbosity.threshold_ge hl

theorem tacit_is_quiet : ofJson tacit = .ok { verbosity := { quiet := true } } ∧
    load tacit = .ok { verbosity := { quiet := true } } ∧
    (Logger.ofConfig { verbosity := { quiet := true } }).threshold = -1 ∧
    ∃ e, load twofold = .error (.json e) := by
  obtain ⟨hread, -, hrepeats, hthreshold⟩ := documents_are_read
  obtain ⟨c, hj, hh, hl, -⟩ := hread tacit tacitEntries document_tacit
  have hc : c = { verbosity := { quiet := true } } := by
    obtain ⟨⟨level, quiet⟩, format⟩ := c
    have hl := hh.levelDefault (by simp [GivesLevel, tacitEntries])
    have hq := hh.quiet true (by simp [GivesQuiet, tacitEntries])
    have hf := hh.formatDefault (by simp [GivesFormat, tacitEntries])
    dsimp only at hl hq hf
    rw [hl, hq, hf]
  subst hc
  have hload := hl.mpr (by decide)
  obtain ⟨-, ht⟩ := hthreshold tacit _ hload
  obtain ⟨e, -, he⟩ := hrepeats twofold [] _ [] blanks_nil repeatsField_twofold
    (List.append_nil _).symm
  exact ⟨hj, hload, (ht _ (.inl rfl)).2 rfl, e, he⟩

end Config

end LineLogger
