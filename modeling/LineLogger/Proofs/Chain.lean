import LineLogger.Proofs.Descent
import LineLogger.Proofs.Utf8

namespace LineLogger

/-- The message of a call after it went through loggers with these time stamps: the last one stands
first, and every logger ends the line once more. -/
def chainText (stamps : List String) (message : String) : String :=
  String.join (stamps.reverse.map (· ++ "\t")) ++ message ++
    String.join (List.replicate stamps.length "\n")

theorem chainText_cons (t : String) (ts : List String) (s : String) :
    chainText (t :: ts) s = chainText ts (t ++ "\t" ++ s ++ "\n") := by
  simp [chainText, String.join_append, String.join_cons, String.append_assoc, List.replicate_succ]

example : chainText ["10", "11"] "up" = "11\t10\tup\n\n" := by decide

def loggersOf (l : LoggerId) (vs : List Writer) : List LoggerId := l :: vs.map (·.logger)

namespace State

/-- The sink of `l` is the first of the writers, the sink of each writer's logger is the next one,
and the last logger has an outlet. -/
def Chained (w : State) : LoggerId → List Writer → Outlet → Prop
  | l, [], o => (w.logger l).sink = .outlet o
  | l, v :: vs, o => (w.logger l).sink = .writer v ∧ w.Chained v.logger vs o

def lets (w : State) (v : Writer) : Bool := (w.logger v.logger).enabled v.severity

def stampAfter (w : State) (before : List LoggerId) (l : LoggerId) : String :=
  let c := (w.logger l).clock
  (w.logger l).timeFormat.render ((w.clocks.get c).ticked (w.readings before c)).now

def stampsAfter (w : State) (before : List LoggerId) : List LoggerId → List String
  | [] => []
  | l :: ls => w.stampAfter before l :: w.stampsAfter (before ++ [l]) ls

/-- The line that comes out of a chain of loggers. -/
def chainLine (w : State) (q : Call) (vs : List Writer) : Bytes :=
  Text.Utf8.ofString
    (chainText (w.stampsAfter [] (loggersOf q.logger vs)) (tag q.label q.message.content))

variable {free : Nat} {held : List LoggerId} {l : LoggerId} {q : Call} {w : State}
  {vs us : List Writer} {v : Writer} {o : Outlet}

theorem stampsAfter_opened (w : State) (q : Call) (before ls : List LoggerId) :
    (w.opened q).stampsAfter before ls = w.stampsAfter (q.logger :: before) ls := by
  induction ls generalizing before with
  | nil => rfl
  | cons k ls ih =>
    simp only [stampsAfter, stampAfter, logger_opened, get_clocks_opened, ih,
      readings_congr (loggers_opened w q), Time.Clock.ticked_ticked, ← readings_cons,
      List.cons_append]

theorem lineOf_eq (w : State) (q : Call) : w.lineOf q =
    Text.Utf8.ofString
      (w.stampAfter [] q.logger ++ "\t" ++ tag q.label q.message.content ++ "\n") := rfl

theorem chainLine_nil (w : State) (q : Call) : w.chainLine q [] = w.lineOf q := by
  simp [chainLine, loggersOf, stampsAfter, chainText, lineOf_eq]

theorem chainLine_cons (w : State) (q : Call) (v : Writer) (vs : List Writer) :
    w.chainLine q (v :: vs) = (w.opened q).chainLine (w.handedOn q v) vs := by
  have hs : (w.opened q).stampsAfter [] (loggersOf v.logger vs) =
      w.stampsAfter [q.logger] (loggersOf v.logger vs) := stampsAfter_opened w q [] _
  have hm : (w.handedOn q v).message.content =
      w.stampAfter [] q.logger ++ "\t" ++ tag q.label q.message.content ++ "\n" := by
    rw [handedOn, lineOf_eq]
    exact Text.Utf8.toString_ofString _
  change Text.Utf8.ofString (chainText (w.stampAfter [] q.logger ::
    w.stampsAfter [q.logger] (loggersOf v.logger vs)) (tag q.label q.message.content)) =
      Text.Utf8.ofString (chainText ((w.opened q).stampsAfter [] (loggersOf v.logger vs))
        (w.handedOn q v).message.content)
  rw [chainText_cons, hs, hm]

theorem chained_opened : (w.opened q).Chained l vs o ↔ w.Chained l vs o := by
  induction vs generalizing l with
  | nil => rw [Chained, Chained, logger_opened]
  | cons v vs ih => rw [Chained, Chained, logger_opened, ih]

theorem lets_opened (w : State) (q : Call) (v : Writer) : (w.opened q).lets v = w.lets v := by
  rw [lets, logger_opened]
  rfl

theorem admits_handedOn (w : State) (q : Call) (v : Writer) :
    (w.opened q).admits (w.handedOn q v) = w.lets v := lets_opened w q v

/-- What the line of a call comes to at the end of a chain that lets it through. -/
structure Lands (w : State) (l : LoggerId) (vs : List Writer) (o : Outlet) (b : Bytes)
    (a : Landing) : Prop where
  path : a.path = loggersOf l vs
  fate : a.fate = .ofFailure (w.deliver o b).2
  outlets : a.state.outlets = (w.deliver o b).1.outlets

theorem lands_of_descend {a : Landing} (hc : w.Chained q.logger vs o) (ha : w.admits q = true)
    (hv : ∀ v ∈ vs, w.lets v = true) (h : w.descend free held q = some a) :
    Lands w q.logger vs o (w.chainLine q vs) a := by
  induction vs generalizing free held q w a with
  | nil =>
    obtain ⟨hl, n, rfl⟩ := free_of_descend ha h
    have hs : (w.logger q.logger).sink = .outlet o := hc
    have hd := deliver_congr o (w.lineOf q) (outlets_opened w q)
    rw [descend_succ ha hl, hs] at h
    cases h
    rw [chainLine_nil]
    exact ⟨rfl, congrArg Fate.ofFailure hd.1, hd.2⟩
  | cons v vs ih =>
    obtain ⟨hl, n, rfl⟩ := free_of_descend ha h
    rw [descend_succ ha hl, hc.1] at h
    obtain ⟨b, hb, rfl⟩ := Option.map_eq_some_iff.mp h
    have hv' : ∀ u ∈ vs, (w.opened q).lets u = true := by
      intro u hu
      rw [lets_opened]
      exact hv u (List.mem_cons_of_mem _ hu)
    have hi := ih (q := w.handedOn q v) (chained_opened.mpr hc.2)
      ((admits_handedOn w q v).trans (hv v List.mem_cons_self)) hv' hb
    have hd := deliver_congr o (w.chainLine q (v :: vs)) (outlets_opened w q)
    rw [← chainLine_cons] at hi
    refine ⟨?_, hi.fate.trans (congrArg Fate.ofFailure hd.1), hi.outlets.trans hd.2⟩
    rw [Landing.path_via, hi.path]
    rfl

theorem not_mem_held (hd : (loggersOf l (v :: vs)).Nodup)
    (hh : ∀ k ∈ loggersOf l (v :: vs), k ∉ held) :
    (loggersOf v.logger vs).Nodup ∧ ∀ k ∈ loggersOf v.logger vs, k ∉ l :: held := by
  obtain ⟨hl, hn⟩ := List.nodup_cons.mp hd
  refine ⟨hn, fun k hk => ?_⟩
  rw [List.mem_cons, not_or]
  exact ⟨fun e => hl (e ▸ hk), hh k (List.mem_cons_of_mem _ hk)⟩

theorem exists_descend (hc : w.Chained q.logger vs o) (ha : w.admits q = true)
    (hv : ∀ v ∈ vs, w.lets v = true) (hd : (loggersOf q.logger vs).Nodup)
    (hh : ∀ k ∈ loggersOf q.logger vs, k ∉ held) (hf : vs.length < free) :
    ∃ a, w.descend free held q = some a := by
  have hl : q.logger ∉ held := hh q.logger List.mem_cons_self
  induction vs generalizing free held q w with
  | nil =>
    obtain ⟨n, rfl⟩ := Nat.exists_eq_add_one_of_ne_zero (Nat.ne_zero_of_lt hf)
    have hs : (w.logger q.logger).sink = .outlet o := hc
    rw [descend_succ ha hl, hs]
    exact ⟨_, rfl⟩
  | cons v vs ih =>
    obtain ⟨n, rfl⟩ := Nat.exists_eq_add_one_of_ne_zero (Nat.ne_zero_of_lt hf)
    obtain ⟨hd', hh'⟩ := not_mem_held hd hh
    have hn : vs.length < n := Nat.lt_of_succ_lt_succ hf
    have hv' : ∀ u ∈ vs, (w.opened q).lets u = true := fun u hu =>
      (lets_opened w q u).trans (hv u (List.mem_cons_of_mem _ hu))
    obtain ⟨a, h⟩ := ih (q := w.handedOn q v) (chained_opened.mpr hc.2)
      ((admits_handedOn w q v).trans (hv v List.mem_cons_self)) hv' hd' hh' hn
      (hh' _ List.mem_cons_self)
    rw [descend_succ ha hl, hc.1]
    exact ⟨a.via q.logger, Option.map_eq_some_iff.mpr ⟨a, h, rfl⟩⟩

theorem descend_of_not_lets {rest : List Writer} (hc : w.Chained q.logger (us ++ v :: rest) o)
    (ha : w.admits q = true) (hu : ∀ u ∈ us, w.lets u = true) (hv : w.lets v = false)
    (hd : (loggersOf q.logger us).Nodup) (hh : ∀ k ∈ loggersOf q.logger us, k ∉ held)
    (hf : us.length < free) :
    ∃ a, w.descend free held q = some a ∧
      a.path = loggersOf q.logger us ++ [v.logger] ∧ a.fate = .filtered := by
  have hl : q.logger ∉ held := hh q.logger List.mem_cons_self
  induction us generalizing free held q w with
  | nil =>
    obtain ⟨n, rfl⟩ := Nat.exists_eq_add_one_of_ne_zero (Nat.ne_zero_of_lt hf)
    have hn := (admits_handedOn w q v).trans hv
    rw [descend_succ ha hl, hc.1]
    exact ⟨_, congrArg (Option.map _) (descend_of_not_admits hn), rfl, rfl⟩
  | cons u us ih =>
    obtain ⟨n, rfl⟩ := Nat.exists_eq_add_one_of_ne_zero (Nat.ne_zero_of_lt hf)
    obtain ⟨hd', hh'⟩ := not_mem_held hd hh
    have hn : us.length < n := Nat.lt_of_succ_lt_succ hf
    have hu' : ∀ x ∈ us, (w.opened q).lets x = true := fun x hx =>
      (lets_opened w q x).trans (hu x (List.mem_cons_of_mem _ hx))
    obtain ⟨a, h, hp, hf'⟩ := ih (q := w.handedOn q u) (chained_opened.mpr hc.2)
      ((admits_handedOn w q u).trans (hu u List.mem_cons_self)) hu' ((lets_opened w q v).trans hv)
      hd' hh' hn (hh' _ List.mem_cons_self)
    rw [descend_succ ha hl, hc.1]
    refine ⟨a.via q.logger, Option.map_eq_some_iff.mpr ⟨a, h, rfl⟩, ?_, hf'⟩
    rw [Landing.path_via, hp]
    rfl

theorem chain_of_descend {a : Landing} (h : w.descend free held q = some a)
    (hf : a.fate ≠ .filtered) :
    w.admits q = true ∧ ∃ vs o, w.Chained q.logger vs o ∧ ∀ v ∈ vs, w.lets v = true := by
  fun_induction descend free held q w generalizing a with
  | case1 => cases h
  | case2 => cases h
  | case3 held q w ha hl free v hs ih =>
    obtain ⟨b, hb, rfl⟩ := Option.map_eq_some_iff.mp h
    obtain ⟨hn, vs, o, hc, hv⟩ := ih hb hf
    refine ⟨ha, v :: vs, o, ⟨hs, chained_opened.mp hc⟩, fun u hu => ?_⟩
    obtain rfl | hu := List.mem_cons.mp hu
    · exact (admits_handedOn w q u).symm.trans hn
    · exact (lets_opened w q u).symm.trans (hv u hu)
  | case4 held q w ha hl free o hs => exact ⟨ha, [], o, hs, by simp⟩
  | case5 =>
    cases h
    exact absurd rfl hf

end State

end LineLogger
