import LineLogger.Proofs.Json.Agreement
import LineLogger.Proofs.Json.Reading
import Mathlib.Data.List.Forall2

namespace LineLogger.Json

open Text.Utf8 (encode)

variable {ρ : Type} {fields : List (Member ρ)} {f : Member ρ} {seen : List String} {key k : String}
  {v y : ρ} {first : Bool} {set : ρ → ρ} {m m' : Pair} {ms : List Pair} {c : Char}
  {cs str : List Char} {r s t : Bytes} {es : List (String × (ρ → ρ))}

theorem Written.plain (h : str.all (IsPlain ·) = true) : Written str str := by
  induction str with
  | nil => exact .nil
  | cons c str ih =>
    rw [List.all_cons, Bool.and_eq_true, decide_eq_true_eq] at h
    exact .cons (.plain h.1) (ih h.2)

theorem Written.unique (h : Written key.toList cs) (h' : Written k.toList cs) : key = k := by
  have he := (h.readString []).symm.trans (h'.readString [])
  exact congrArg Prod.fst (Except.ok.inj he)

theorem readMembers_eq (fields : List (Member ρ)) (first : Bool) (seen : List String) (v : ρ)
    (s : Bytes) : readMembers fields first seen v s =
      match nextKey first s with
      | .error e => .error e
      | .ok (.done r) => .ok (v, r)
      | .ok (.key r) => (readString r).bind fun p => (readMember fields seen p.1 p.2).bind fun q =>
          readMembers fields false (p.1 :: seen) (q.1 v) q.2 := by
  rw [readMembers]
  split
  · next h => rw [h]
  · next h => rw [h]
  · next h =>
    split
    · next h₂ => simp only [h, h₂, Except.bind]
    · next h₂ =>
      split
      · next h₃ => simp only [h, h₂, h₃, Except.bind]
      · next h₃ => simp only [h, h₂, h₃, Except.bind]

theorem nextKey_close (hb : skipBlank s = closeBrace :: r) (first : Bool) :
    nextKey first s = .ok (.done r) := by
  rw [nextKey, hb]
  exact if_pos rfl

theorem nextKey_first (hb : skipBlank s = quote :: r) : nextKey true s = .ok (.key r) := by
  rw [nextKey, hb]
  rfl

theorem nextKey_more (hb : skipBlank s = comma :: r) (hq : skipBlank r = quote :: t) :
    nextKey false s = .ok (.key t) := by
  rw [nextKey, hb]
  dsimp only
  rw [hq]
  rfl

theorem Members.nextKey_nil (h : Members first [] cs) (s : Bytes) :
    nextKey first (encode cs ++ s) = .ok (.done s) := by
  cases h with
  | last first hw =>
    rw [encode_append, List.append_assoc]
    exact nextKey_close (skipBlank_blanks_cons hw rfl s) first

theorem Members.nextKey_cons (h : Members first (m :: ms) cs) (s : Bytes) :
    ∃ u w t, Blanks u ∧ Blanks w ∧ Members false ms t ∧
      nextKey first (encode cs ++ s) = .ok (.key (encode m.1 ++ quote :: (encode u ++
        colon :: (encode w ++ (encode m.2 ++ (encode t ++ s)))))) := by
  cases h with
  | first hl hw ht =>
    obtain ⟨hu, hu'⟩ := hl
    refine ⟨_, _, _, hu', hw, ht, ?_⟩
    rw [encode_append, encode_append, encode_append, List.append_assoc, List.append_assoc,
      List.append_assoc, encode_key]
    exact nextKey_first (skipBlank_blanks_cons hu rfl _)
  | @more m w l w' t ms hw hl hw' ht =>
    obtain ⟨hu, hu'⟩ := hl
    refine ⟨_, _, _, hu', hw', ht, ?_⟩
    rw [encode_append, encode_append, encode_append, List.append_assoc, List.append_assoc,
      List.append_assoc, encode_append, encode_cons_of_lt (by decide), List.append_assoc,
      List.cons_append, encode_key]
    exact nextKey_more (skipBlank_blanks_cons hw rfl _) (skipBlank_blanks_cons hu rfl _)

theorem Members.ends (h : Members false ms cs) (s : Bytes) : Ends (encode cs ++ s) := by
  cases h with
  | last first hw =>
    rw [encode_append, List.append_assoc]
    exact ends_blanks hw (ends_cons rfl s)
  | more hw =>
    rw [List.append_assoc, List.append_assoc, List.append_assoc, encode_append, List.append_assoc]
    exact ends_blanks hw (ends_cons rfl _)

def knows (fields : List (Member ρ)) (key : String) : Bool :=
  (fields.find? (fun f => f.key == key)).isSome

/-- What a member does to a record: its field is set, or it is of no field and passed over. -/
inductive Sets (fields : List (Member ρ)) (m : Pair) : String → (ρ → ρ) → Prop
  | known {key : String} {f : Member ρ} {set : ρ → ρ} (hk : Written key.toList m.1)
      (hf : fields.find? (fun f => f.key == key) = some f) (hr : Reads f.read m.2 set) :
      Sets fields m key set
  | unknown {key : String} (hk : Written key.toList m.1)
      (hf : fields.find? (fun f => f.key == key) = none) (hv : Derives .value m.2) :
      Sets fields m key id

theorem Sets.written (h : Sets fields m key set) : Written key.toList m.1 := by
  cases h with
  | known hk => exact hk
  | unknown hk => exact hk

theorem Reads.of {α : Type} {read : Bytes → Read α} {a : α} (h : Reads read cs a) (key : String)
    (hs : Shortens read) (set : α → ρ → ρ) : Reads (Member.of key read hs set).read cs (set a) :=
  h.map set

theorem readColon_blanks {w : List Char} (hw : Blanks w) (s : Bytes) :
    readColon (encode w ++ colon :: s) = .ok s := by
  rw [readColon, skipBlank_blanks_cons hw rfl]
  exact if_pos rfl

theorem Sets.readMember {u w : List Char} (h : Sets fields m key set) (hu : Blanks u)
    (hw : Blanks w) (hs : Ends s) (hk : knows fields key = true → key ∉ seen) :
    readMember fields seen key (encode u ++ colon :: (encode w ++ (encode m.2 ++ s))) =
      .ok (set, s) := by
  have hc := readColon_blanks hu (encode w ++ (encode m.2 ++ s))
  cases h with
  | known hw' hf hr =>
    have hn : seen.contains key = false := by simpa using hk (by rw [knows, hf]; rfl)
    simp only [Json.readMember, hf, hn, hc, Bool.false_eq_true, if_false]
    exact hr w s hw hs
  | unknown hw' hf hv =>
    simp only [Json.readMember, hf, hc, skipValue_value hw hv hs]
    rfl

/-- An object is read member by member, whatever blanks it has. No field may come twice. -/
theorem Members.readMembers (h : Members first ms cs)
    (he : List.Forall₂ (fun m e => Sets fields m e.1 e.2) ms es)
    (hn : ((es.map (·.1)).filter (knows fields)).Nodup)
    (hs : ∀ e ∈ es, knows fields e.1 = true → e.1 ∉ seen) (v : ρ) (s : Bytes) :
    readMembers fields first seen v (encode cs ++ s) = .ok (es.foldl (fun v e => e.2 v) v, s) := by
  induction he generalizing first seen v cs with
  | nil => rw [readMembers_eq, h.nextKey_nil]; rfl
  | @cons m e ms es hm he ih =>
    obtain ⟨u, w, t, hu, hw, ht, hk⟩ := h.nextKey_cons s
    have hr := hm.readMember hu hw (ht.ends s) (hs e List.mem_cons_self)
    rw [readMembers_eq, hk]
    dsimp only
    rw [hm.written.readString]
    change (Json.readMember _ _ _ _).bind _ = _
    rw [hr]
    rw [List.map_cons, List.filter_cons] at hn
    apply ih ht
    · split at hn
      · exact (List.nodup_cons.mp hn).2
      · exact hn
    · intro e' he' hk' hm'
      obtain he | he := List.mem_cons.mp hm'
      · rw [he] at hk'
        rw [if_pos hk'] at hn
        refine (List.nodup_cons.mp hn).1 (List.mem_filter.mpr ⟨?_, hk'⟩)
        rw [← he]
        exact List.mem_map_of_mem he'
      · exact hs e' (List.mem_cons_of_mem _ he') hk' he

def IsMember (m : Pair) : Prop := (∃ key : String, Written key.toList m.1) ∧ Derives .value m.2

/-- What a reader has found when it has taken a whole object: no field has come twice, nor one that
was seen before, and the value of every field could be read. -/
structure Taken (fields : List (Member ρ)) (seen : List String) (ms : List Pair) : Prop where
  fresh : ∀ m ∈ ms, ∀ key : String, Written key.toList m.1 → knows fields key = true → key ∉ seen
  once : ∀ m m' : Pair, [m, m'].Sublist ms → ∀ key : String, Written key.toList m.1 →
    Written key.toList m'.1 → knows fields key = false
  read : ∀ m ∈ ms, ∀ (key : String) (f : Member ρ), Written key.toList m.1 →
    fields.find? (fun f => f.key == key) = some f → ∃ w s set, Blanks w ∧
      f.read (encode w ++ (encode m.2 ++ s)) = .ok (set, s)

theorem readMember_cases (h : readMember fields seen key s = .ok (set, r)) :
    (knows fields key = true → key ∉ seen) ∧ ∃ t, readColon s = .ok t ∧
      ∀ f, fields.find? (fun f => f.key == key) = some f → f.read t = .ok (set, r) := by
  rw [readMember] at h
  split at h
  · next f hf =>
    split at h
    · rw [duplicate.eq_def] at h
      split at h <;> cases h
    · next hs =>
      split at h
      · cases h
      · next t ht =>
        refine ⟨fun _ => by simpa using hs, t, ht, fun g hg => ?_⟩
        rw [hf] at hg
        cases hg
        exact h
  · next hf =>
    split at h
    · cases h
    · next t ht =>
      refine ⟨fun hk => ?_, t, ht, fun g hg => ?_⟩
      · rw [knows, hf] at hk
        cases hk
      · rw [hf] at hg
        cases hg

theorem taken_of_readMembers (hf : ∀ f ∈ fields, Agrees f.read) (h : Members first ms cs)
    (hm : ∀ m ∈ ms, IsMember m)
    (hr : readMembers fields first seen v (encode cs ++ s) = .ok (y, r)) :
    Taken fields seen ms := by
  induction ms generalizing first seen v cs with
  | nil => exact ⟨nofun, fun m m' hs => (by cases hs), nofun⟩
  | cons m ms ih =>
    obtain ⟨u, w, t, hu, hw, ht, hk⟩ := h.nextKey_cons s
    obtain ⟨⟨key, hkey⟩, hv⟩ := hm m List.mem_cons_self
    rw [readMembers_eq, hk] at hr
    dsimp only at hr
    rw [hkey.readString] at hr
    change (Json.readMember _ _ _ _).bind _ = _ at hr
    cases hx : readMember fields seen key
      (encode u ++ colon :: (encode w ++ (encode m.2 ++ (encode t ++ s)))) with
    | error e =>
      rw [hx] at hr
      cases hr
    | ok p =>
      obtain ⟨set, x⟩ := p
      rw [hx] at hr
      obtain ⟨hs, z, hz, hread⟩ := readMember_cases hx
      -- Whatever reads the value of a member stops where it would stop if it only passed over it.
      obtain ⟨z', hz', hval⟩ := readMember_agrees hf hx
      cases (readColon_blanks hu _).symm.trans hz
      cases hz.symm.trans hz'
      have hxs : encode t ++ s = x :=
        Except.ok.inj ((skipValue_value hw hv (ht.ends s)).symm.trans hval)
      subst hxs
      have hi := ih ht (fun m hm' => hm m (List.mem_cons_of_mem _ hm')) hr
      refine ⟨fun a ha k hk' hkn => ?_, fun a b hab k ha hb => ?_, fun a ha k f hk' hf' => ?_⟩
      · obtain rfl | ha := List.mem_cons.mp ha
        · rw [← hkey.unique hk'] at hkn ⊢
          exact hs hkn
        · exact fun hm' => hi.fresh a ha k hk' hkn (List.mem_cons_of_mem _ hm')
      · obtain hab | ⟨l, hl, hbl⟩ := List.sublist_cons_iff.mp hab
        · exact hi.once a b hab k ha hb
        · cases hl
          rw [← hkey.unique ha] at hb ⊢
          cases hkn : knows fields key with
          | false => rfl
          | true =>
            have hn := hi.fresh b (List.singleton_sublist.mp hbl) key hb hkn
            exact absurd List.mem_cons_self hn
      · obtain rfl | ha := List.mem_cons.mp ha
        · rw [← hkey.unique hk'] at hf'
          exact ⟨w, _, set, hw, hread f hf'⟩
        · exact hi.read a ha k f hk' hf'

inductive Object {ε : Type} (spells : ε → Pair → Prop) (es : List ε) : List Char → Prop
  | mk {ms : List Pair} {cs : List Char} (hm : Members true ms cs)
      (he : List.Forall₂ spells es ms) : Object spells es ('\x7b' :: cs)

def Single {ε : Type} (keys : List String) (key : ε → String) (es : List ε) : Prop :=
  ((es.map key).filter (keys.contains ·)).Nodup
  deriving Decidable

/-- The text of an object in which one of these keys comes twice. The values may be any. -/
inductive Repeats (keys : List String) : List Char → Prop
  | mk {key : String} {ms : List Pair} {m m' : Pair} {cs : List Char} (hm : Members true ms cs)
      (hs : ∀ m ∈ ms, IsMember m) (hk : key ∈ keys) (ht : [m, m'].Sublist ms)
      (hw : Written key.toList m.1) (hw' : Written key.toList m'.1) : Repeats keys ('\x7b' :: cs)

variable {ε : Type} {spells : ε → Pair → Prop} {key : ε → String} {set : ε → ρ → ρ} {x z : ρ}
  {entries : List ε} {w v : List Char} {name : String}

theorem knows_eq (fields : List (Member ρ)) (k : String) :
    knows fields k = (fields.map (·.key)).contains k := by
  rw [knows, Bool.eq_iff_iff, List.find?_isSome]
  simp

theorem find?_eq_none {k : String} (h : k ∉ fields.map (·.key)) :
    fields.find? (fun f => f.key == k) = none := by
  have hk := knows_eq fields k
  rw [List.contains_eq_mem, decide_eq_false h] at hk
  exact Option.isSome_eq_false_iff.mp hk |> Option.isNone_iff_eq_none.mp

theorem readRecord_openBrace (hb : skipBlank s = openBrace :: r) (name : String)
    (fields : List (Member ρ)) (x : ρ) :
    readRecord name fields x s = readMembers fields true [] x r := by
  rw [readRecord, hb]
  exact if_pos rfl

theorem readRecord_object (hw : Blanks w) (name : String) (fields : List (Member ρ)) (x : ρ)
    (cs : List Char) (s : Bytes) :
    readRecord name fields x (encode w ++ (encode ('\x7b' :: cs) ++ s)) =
      readMembers fields true [] x (encode cs ++ s) := by
  have hb := skipBlank_blanks_cons hw (b := openBrace) rfl (encode cs ++ s)
  rw [encode_cons_of_lt (by decide)]
  exact readRecord_openBrace hb name fields x

theorem Object.reads (h : Object spells entries v)
    (hs : ∀ e m, spells e m → Sets fields m (key e) (set e))
    (hn : Single (fields.map (·.key)) key entries) (x : ρ) (name : String) :
    Reads (readRecord name fields x) v (entries.foldl (fun x e => set e x) x) := by
  intro w s hw _
  obtain @⟨ms, cs, hm, he⟩ := h
  have hk : knows fields = ((fields.map (·.key)).contains ·) := by
    funext k
    exact knows_eq fields k
  have hsets : List.Forall₂ (fun m e => Sets fields m e.1 e.2) ms
      (entries.map (fun e => (key e, set e))) := by
    rw [List.forall₂_map_right_iff]
    exact he.flip.imp (fun m e h => hs e m h)
  rw [readRecord_object hw, hm.readMembers hsets, List.foldl_map]
  · rw [List.map_map, hk]
    exact hn
  · exact nofun

theorem not_reads_of_repeats (hf : ∀ f ∈ fields, Agrees f.read)
    (h : Repeats (fields.map (·.key)) v) (hw : Blanks w) :
    readRecord name fields x (encode w ++ (encode v ++ s)) ≠ .ok (z, r) := by
  intro hr
  obtain ⟨hm, hs, hk, ht, hw₁, hw₂⟩ := h
  rw [readRecord_object hw] at hr
  have hn := (taken_of_readMembers hf hm hs hr).once _ _ ht _ hw₁ hw₂
  rw [knows_eq] at hn
  simp_all

end LineLogger.Json
