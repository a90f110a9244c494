import LineLogger.Proofs.Deposits
import LineLogger.Proofs.Footprint

namespace LineLogger

/-- The bytes that an entry sends to an outlet. -/
def Entry.sent (o : Outlet) : Entry → Bytes
  | .written s b => if s = .outlet o then b else []
  | .line _ s f now label m =>
    if s = .outlet o then Emission.bytes ⟨f.render now, label, m⟩ else []
  | .cleared _ => []

namespace FileTree

variable {t t' : FileTree} {l m : Location} {path name : String}

theorem content_replace (t : FileTree) (l m : Location) (b : Bytes) :
    (t.replace l b).content m = if m = l then b else t.content m := by
  rw [content, content?_replace]
  split <;> rfl

theorem content_append (t : FileTree) (l m : Location) (b : Bytes) :
    (t.append l b).content m = t.content m ++ if m = l then b else [] := by
  rw [append, content_replace]
  split
  · next h => rw [h]
  · exact (List.append_nil _).symm

theorem content?_touch (t : FileTree) (l m : Location) :
    (t.touch l).content? m = if m = l then some (t.content l) else t.content? m := by
  rw [touch]
  split
  · next b hb =>
    split
    · next h => rw [h, content, hb, Option.getD_some]
    · rfl
  · next hb =>
    rw [content?_replace, content, hb]
    rfl

theorem content?_touch_of_some {b : Bytes} (h : t.content? m = some b) :
    (t.touch l).content? m = some b := by
  rw [content?_touch]
  split
  · next hm => rw [← hm, content, h, Option.getD_some]
  · exact h

theorem content?_touch_of_none (h : t.content? l = none) : (t.touch l).content? l = some [] := by
  rw [content?_touch, if_pos rfl, content, h]
  rfl

theorem content_touch (t : FileTree) (l m : Location) : (t.touch l).content m = t.content m := by
  rw [content, content?_touch]
  split
  · next h => rw [h, Option.getD_some]
  · rfl

theorem directories_touch (t : FileTree) (l : Location) :
    (t.touch l).directories = t.directories := by
  rw [touch]
  split <;> rfl

theorem isDirectory_congr (ht : t'.directories = t.directories) (l : Location) :
    t'.isDirectory l = t.isDirectory l := congrArg (·.contains l) ht

theorem enter_of_directories (ht : t'.directories = t.directories) (h : t.enter l name = .ok m) :
    t'.enter l name = .ok m := by
  simp only [enter, isDirectory_congr ht] at h ⊢
  -- The two trees can only differ in why a name is not entered.
  split_ifs at h ⊢ <;> exact h

theorem enterAll_of_directories {names : List String} (ht : t'.directories = t.directories)
    (h : t.enterAll l names = .ok m) : t'.enterAll l names = .ok m := by
  induction names generalizing l with
  | nil => exact h
  | cons name names ih =>
    rw [enterAll] at h ⊢
    split at h
    · cases h
    · next k hk =>
      rw [enter_of_directories ht hk]
      exact ih h

theorem fileAt_congr (ht : t'.directories = t.directories) (l : Location) (name : String) :
    t'.fileAt l name = t.fileAt l name := by
  simp only [fileAt, isDirectory_congr ht]

theorem locate_of_directories (ht : t'.directories = t.directories) (h : t.locate path = .ok l) :
    t'.locate path = .ok l := by
  rw [locate] at h ⊢
  simp only [fileAt_congr ht]
  split_ifs at h ⊢
  all_goals
    split at h
    · cases h
    · split at h
      · cases h
      · next hk =>
        rw [enterAll_of_directories ht hk]
        exact h

end FileTree

namespace State

variable {w u : State} {path : String} {s : Sink} {x : Error}

theorem openFile_ok (h : w.openFile path = .ok (u, s)) :
    ∃ l, w.files.locate path = .ok l ∧ s = .outlet (.file l) ∧
      u = { w with files := w.files.touch l } := by
  rw [openFile, FileTree.openAppend] at h
  cases hl : w.files.locate path with
  | error e =>
    rw [hl] at h
    cases h
  | ok l =>
    rw [hl] at h
    cases h
    exact ⟨l, rfl, rfl, rfl⟩

theorem openFile_of_locate {l : Location} (h : w.files.locate path = .ok l) :
    w.openFile path = .ok ({ w with files := w.files.touch l }, .outlet (.file l)) := by
  rw [openFile, FileTree.openAppend, h]
  rfl

theorem openFile_error (h : w.openFile path = .error x) :
    ∃ e, w.files.locate path = .error e ∧ x = .fileSink path e := by
  rw [openFile, FileTree.openAppend] at h
  cases hl : w.files.locate path with
  | error e =>
    rw [hl] at h
    cases h
    exact ⟨e, rfl, rfl⟩
  | ok l =>
    rw [hl] at h
    cases h

theorem content_deliver (w : State) (o : Outlet) (b : Bytes) (l : Location) :
    (w.deliver o b).1.files.content l =
      w.files.content l ++ if Sink.outlet o = .outlet (.file l) then b else [] := by
  cases o with
  | file m =>
    refine (FileTree.content_append w.files m l b).trans ?_
    by_cases h : l = m
    · simp [h]
    · simp [h, Ne.symm h]
  | _ => simp [deliver]

/-- A file gets what is sent to it, and keeps it. -/
theorem account_file (l : Location) :
    Account (·.files.content l) (fun b e => b ++ e.sent (.file l)) where
  congr h := congrArg (fun d => d.files.content l) h
  deliver w o b := content_deliver w o b l
  offer w o b := by
    cases o with
    | device j => exact content_deliver w (.device j) b l
    | _ => exact content_deliver w _ b l
  flushOutlet w o := by cases o <;> rfl
  clear w j := (List.append_nil _).symm
  line x k o f now label m := rfl

end State

end LineLogger
