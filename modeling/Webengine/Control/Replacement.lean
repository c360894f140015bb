/- source: backend/src/ProcessUtil.cpp (write_file_atomic)
   digest: One call of write_file_atomic among others on the same path: where it stands, what its
   next step may be, and what the step does to the temporary file and to what the path shows. -/

import Webengine.Control.ProcessUtil

set_option autoImplicit false
set_option relaxedAutoImplicit false

namespace Webengine.Control.Replacement

open Webengine.Control.Host
open Webengine.Control.ProcessUtil
open Webengine.Engine.Roles (Str)
open Webengine.Library.Files (Fs)
open Webengine.Library.Programs (Prog)

variable {d : Daemon} {path content : Str}

/-- The step opens the temporary file. -/
def opens (path : Str) (env : Env) : Op → Bool
  | .openTrunc tmp => tmp = tmpName path && env.failure.isNone
  | _ => false

/-- The step changes the temporary file or makes it the file. -/
def touches : Op → Prop
  | .write _ _ _ => True
  | .rename _ _ => True
  | _ => False

section Equations

/-- What a call does once it has tried to open the temporary file. -/
def opened (path content : Str) : Option Nat → Code Bool
  | none => do
    sys (.setLastError ("cannot write ".toList ++ tmpName path ++ " (permission?)".toList))
    pure false
  | some file => .op (.buffer content) fun ps => writePieces file 0 ps >>= promote path file

theorem writeFileAtomic_eq (path content : Str) :
    writeFileAtomic path content = .op (.openTrunc (tmpName path)) (opened path content) := by
  refine congrArg (Prog.op _) (funext fun file => ?_)
  cases file <;> rfl

/-- What a call does once it has tried to rename the file. -/
def renamed (path : Str) : Option Errno → Code Bool
  | some e => do
    sys (.setLastError ("rename to ".toList ++ path ++ " failed: ".toList ++ strerror e))
    sys (.remove (tmpName path))
    pure false
  | none => pure true

private theorem promote_none_eq (path : Str) (file : Nat) :
    promote path file none = .op (.rename (tmpName path) path) (renamed path) := by
  refine congrArg (Prog.op _) (funext fun failed => ?_)
  cases failed <;> rfl

/-- What a call does once it has tried to write a piece. -/
def wrote (path : Str) (file offset : Nat) (piece : Str) (ps : List Str) (n : Nat) : Code Bool :=
  if n = piece.length then writePieces file (offset + piece.length) ps >>= promote path file
  else promote path file (some (offset + n, piece))

private theorem writePieces_cons_eq (path : Str) (file offset : Nat) (piece : Str) (ps : List Str) :
    (writePieces file offset (piece :: ps) >>= promote path file) =
      .op (.write file offset piece) (wrote path file offset piece ps) := by
  refine congrArg (Prog.op _) (funext fun n => ?_)
  change (if n = piece.length then writePieces file (offset + piece.length) ps
    else .ret (some (offset + n, piece))) >>= promote path file = _
  unfold wrote
  split_ifs <;> rfl

/-- The end of a stream that has failed, in a call that returns false. -/
def left (file offset : Nat) (rest : Str) : Code Bool :=
  if rest = [] then .ret false else .op (.write file offset rest) fun _ => .ret false

private theorem closeFailed_eq (file offset : Nat) (piece : Str) :
    (closeFailed file offset piece >>= fun _ => .ret false) =
      .op (.buffered piece) (left file offset) := by
  refine congrArg (Prog.op _) (funext fun rest => ?_)
  change (if rest = [] then .ret () else .op (.write file offset rest) fun _ => .ret () :
    Code Unit) >>= (fun _ => (.ret false : Code Bool)) = _
  unfold left
  split_ifs <;> rfl

end Equations

section Stages

/-- A call that has the file open, and what it has written of its content. -/
inductive Filling (path content : Str) (file : Nat) : Str → Code Bool → Prop
  | buffering : Filling path content file []
      (.op (.buffer content) fun ps => writePieces file 0 ps >>= promote path file)
  | writing (text : Str) (ps : List Str) (whole : text ++ ps.flatten = content) :
      Filling path content file text (writePieces file text.length ps >>= promote path file)

/-- A call whose stream has failed; it has it open until it returns. -/
inductive Leaving (path : Str) (file : Nat) : Code Bool → Prop
  | report (text : Str) {k : Unit → Code Bool} (rest : ∀ a, Leaving path file (k a)) :
      Leaving path file (.op (.setLastError text) k)
  | remove {k : Unit → Code Bool} (rest : ∀ a, Leaving path file (k a)) :
      Leaving path file (.op (.remove (tmpName path)) k)
  | close (offset : Nat) (piece : Str) :
      Leaving path file (.op (.buffered piece) (left file offset))
  | write (offset : Nat) (rest : Str) :
      Leaving path file (.op (.write file offset rest) fun _ => .ret false)

/-- A call that gives up, without an open file. -/
inductive Closing (path : Str) : Code Bool → Prop
  | ret : Closing path (.ret false)
  | report (text : Str) {k : Unit → Code Bool} (rest : ∀ a, Closing path (k a)) :
      Closing path (.op (.setLastError text) k)
  | remove {k : Unit → Code Bool} (rest : ∀ a, Closing path (k a)) :
      Closing path (.op (.remove (tmpName path)) k)

/-- Where a call stands. What it has written is in its file if it was the last to open it. -/
inductive Stage (path content : Str) (last : Prop) (fs : Fs Str) (p : Code Bool) : Prop
  | before (h : p = writeFileAtomic path content)
  | filling {file : Nat} {text : Str} (h : Filling path content file text p)
      (owned : last → fs.Owned (tmpName path) path file text)
  | leaving {file : Nat} (h : Leaving path file p)
      (owned : last → ∃ text, fs.Owned (tmpName path) path file text)
  | closing (h : Closing path p)
  | done (h : p = .ret true)

/-- The next step of a call, and how it goes on with the answer. -/
inductive Next (path content : Str) (last : Prop) (fs : Fs Str) :
    (o : Op) → (Ans o → Code Bool) → Prop
  | opens : Next path content last fs (.openTrunc (tmpName path)) (opened path content)
  | buffers {file : Nat} (owned : last → fs.Owned (tmpName path) path file []) :
      Next path content last fs (.buffer content)
        fun ps => writePieces file 0 ps >>= promote path file
  | writes {file : Nat} {text piece : Str} {ps : List Str}
      (whole : text ++ (piece :: ps).flatten = content)
      (owned : last → fs.Owned (tmpName path) path file text) :
      Next path content last fs (.write file text.length piece)
        (wrote path file text.length piece ps)
  | renames {file : Nat} (owned : last → fs.Owned (tmpName path) path file content) :
      Next path content last fs (.rename (tmpName path) path) (renamed path)
  | leaves (text : Str) {file : Nat} {k : Unit → Code Bool}
      (rest : ∀ a, Leaving path file (k a))
      (owned : last → ∃ text, fs.Owned (tmpName path) path file text) :
      Next path content last fs (.setLastError text) k
  | unlinks {file : Nat} {k : Unit → Code Bool} (rest : ∀ a, Leaving path file (k a))
      (owned : last → ∃ text, fs.Owned (tmpName path) path file text) :
      Next path content last fs (.remove (tmpName path)) k
  | closes {file : Nat} (offset : Nat) (piece : Str)
      (owned : last → ∃ text, fs.Owned (tmpName path) path file text) :
      Next path content last fs (.buffered piece) (left file offset)
  | rewrites {file : Nat} (offset : Nat) (rest : Str)
      (owned : last → ∃ text, fs.Owned (tmpName path) path file text) :
      Next path content last fs (.write file offset rest) fun _ => .ret false
  | reports (text : Str) {k : Unit → Code Bool} (rest : ∀ a, Closing path (k a)) :
      Next path content last fs (.setLastError text) k
  | removes {k : Unit → Code Bool} (rest : ∀ a, Closing path (k a)) :
      Next path content last fs (.remove (tmpName path)) k

theorem Stage.next {last : Prop} {fs : Fs Str} {p : Code Bool} (h : Stage path content last fs p)
    {o : Op} {k : Ans o → Code Bool} (hop : p = .op o k) : Next path content last fs o k := by
  cases h with
  | before h =>
    rw [h, writeFileAtomic_eq] at hop
    cases hop
    exact .opens
  | @filling file text h owned =>
    cases h with
    | buffering =>
      cases hop
      exact .buffers owned
    | writing text ps whole =>
      cases ps with
      | nil =>
        cases (promote_none_eq path file).symm.trans hop
        rw [List.flatten_nil, List.append_nil] at whole
        subst whole
        exact .renames owned
      | cons piece ps =>
        rw [writePieces_cons_eq] at hop
        cases hop
        exact .writes whole owned
  | leaving h owned =>
    subst hop
    cases h with
    | report text rest => exact .leaves text rest owned
    | remove rest => exact .unlinks rest owned
    | close offset piece => exact .closes offset piece owned
    | write offset rest => exact .rewrites offset rest owned
  | closing h =>
    subst hop
    cases h with
    | report text rest => exact .reports text rest
    | remove rest => exact .removes rest
  | done h =>
    rw [h] at hop
    cases hop

theorem Stage.of_imp {last last' : Prop} {fs : Fs Str} {p : Code Bool}
    (h : Stage path content last fs p) (le : last' → last) : Stage path content last' fs p := by
  cases h with
  | before h => exact .before h
  | filling h owned => exact .filling h fun l => owned (le l)
  | leaving h owned => exact .leaving h fun l => owned (le l)
  | closing h => exact .closing h
  | done h => exact .done h

theorem Stage.of_keeps {last last' : Prop} {fs fs' : Fs Str} {p : Code Bool}
    (h : Stage path content last fs p)
    (keeps : last' → last ∧ ∀ file text, fs.Owned (tmpName path) path file text →
      fs'.Owned (tmpName path) path file text) : Stage path content last' fs' p := by
  cases h with
  | before h => exact .before h
  | filling h owned =>
    refine .filling h fun now => ?_
    obtain ⟨was, kept⟩ := keeps now
    exact kept _ _ (owned was)
  | leaving h owned =>
    refine .leaving h fun now => ?_
    obtain ⟨was, kept⟩ := keeps now
    obtain ⟨text, own⟩ := owned was
    exact ⟨text, kept _ _ own⟩
  | closing h => exact .closing h
  | done h => exact .done h

/-- The call has the temporary file open: it has begun, and may still write or rename it. -/
def hasOpen : Code Bool → Prop
  | .op (.openTrunc _) _ => False
  | p => ¬ p.Only fun o => ¬ touches o

theorem Filling.hasOpen {file : Nat} {text : Str} {p : Code Bool}
    (h : Filling path content file text p) : hasOpen p := by
  cases h with
  | buffering => exact fun only => (only.2 []).1 trivial
  | writing text ps whole =>
    cases ps with
    | nil => exact fun only => only.1 trivial
    | cons piece ps => exact fun only => only.1 trivial

private theorem Filling.ne_done {file : Nat} {text : Str} {p : Code Bool}
    (h : Filling path content file text p) : p ≠ .ret true := by
  rintro rfl
  exact h.hasOpen trivial

private theorem Leaving.ne_done {file : Nat} {p : Code Bool} (h : Leaving path file p) :
    p ≠ .ret true := by
  rintro rfl
  cases h

theorem Closing.only {p : Code Bool} (h : Closing path p) : p.Only fun o => ¬ touches o := by
  induction h with
  | ret => trivial
  | report text rest ih => exact ⟨id, ih⟩
  | remove rest ih => exact ⟨id, ih⟩

private theorem Closing.not_hasOpen {p : Code Bool} (h : Closing path p) : ¬ hasOpen p := by
  have only := h.only
  cases h with
  | ret => exact fun now => now only
  | report text rest => exact fun now => now only
  | remove rest => exact fun now => now only

private theorem Closing.ne_done {p : Code Bool} (h : Closing path p) : p ≠ .ret true := by
  rintro rfl
  cases h

theorem hasOpen_of_touches {o : Op} (touching : touches o) (k : Ans o → Code Bool) :
    hasOpen (.op o k) := by
  cases o with
  | write file offset piece => exact fun only => only.1 trivial
  | rename a b => exact fun only => only.1 trivial
  | _ => exact touching.elim

end Stages

section Steps

variable {env : Env} {s : State} {last : Prop}

private theorem closing_opened_none : Closing path (opened path content none) :=
  .report _ fun _ => .ret

private theorem leaving_promote (file offset : Nat) (piece : Str) :
    Leaving path file (promote path file (some (offset, piece))) := by
  refine .report _ fun _ => .remove fun _ => ?_
  change Leaving path file (closeFailed file offset piece >>= fun _ => .ret false)
  rw [closeFailed_eq]
  exact .close offset piece

private theorem closing_renamed_some (e : Errno) : Closing path (renamed path (some e)) :=
  .report _ fun _ => .remove fun _ => .ret

/-- What a step of a call has done: the path shows the same, or the whole content and the call
returns true. -/
structure Goes (path content : Str) (last : Prop) (s : State) (o : Op) (s' : State)
    (p : Code Bool) : Prop where
  stage : Stage path content last s'.fs p
  shown : (p ≠ .ret true ∧ s'.fs.read path = s.fs.read path) ∨
    (p = .ret true ∧ o = .rename (tmpName path) path ∧ s'.fs.read path = some content)

theorem Goes.of_imp {last last' : Prop} {s s' : State} {o : Op} {p : Code Bool}
    (h : Goes path content last s o s' p) (le : last' → last) :
    Goes path content last' s o s' p :=
  ⟨h.stage.of_imp le, h.shown⟩

private theorem Goes.of_closing {last : Prop} {s s' : State} {o : Op} {p : Code Bool}
    (h : Closing path p) (same : s'.fs.read path = s.fs.read path) :
    Goes path content last s o s' p :=
  ⟨.closing h, Or.inl ⟨h.ne_done, same⟩⟩

private theorem Goes.of_filling {last : Prop} {s s' : State} {o : Op} {p : Code Bool} {file : Nat}
    {text : Str} (h : Filling path content file text p)
    (owned : last → s'.fs.Owned (tmpName path) path file text)
    (same : s'.fs.read path = s.fs.read path) : Goes path content last s o s' p :=
  ⟨.filling h owned, Or.inl ⟨h.ne_done, same⟩⟩

private theorem Goes.of_leaving {last : Prop} {s s' : State} {o : Op} {p : Code Bool} {file : Nat}
    (h : Leaving path file p) (owned : last → ∃ text, s'.fs.Owned (tmpName path) path file text)
    (same : s'.fs.read path = s.fs.read path) : Goes path content last s o s' p :=
  ⟨.leaving h owned, Or.inl ⟨h.ne_done, same⟩⟩

private theorem goes_open :
    Goes path content True s (.openTrunc (tmpName path))
      (hostStep d env s (.openTrunc (tmpName path))).2
      (opened path content (hostStep d env s (.openTrunc (tmpName path))).1) := by
  cases hf : env.failure with
  | some err =>
    simp only [hostStep, hf]
    exact .of_closing closing_opened_none (by simp)
  | none =>
    simp only [hostStep, hf, arrive_fs]
    refine .of_filling .buffering (fun _ => ?_) ?_
    · exact Fs.owned_openTrunc s.fs (Ne.symm (tmpName_ne path))
    · exact Fs.read_openTrunc_of_ne (tmpName_ne path)

private theorem goes_buffer {file : Nat} (owned : last → s.fs.Owned (tmpName path) path file []) :
    Goes path content last s (.buffer content) (hostStep d env s (.buffer content)).2
      (writePieces file 0 (hostStep d env s (.buffer content)).1 >>= promote path file) := by
  refine .of_filling (.writing [] _ (flatten_pieces _ _)) (fun now => ?_) (by simp [hostStep])
  simp only [hostStep, arrive_fs]
  exact owned now

private theorem goes_promote {file : Nat} (owned : s.fs.Owned (tmpName path) path file content) :
    Goes path content last s (.rename (tmpName path) path)
      (hostStep d env s (.rename (tmpName path) path)).2
      (renamed path (hostStep d env s (.rename (tmpName path) path)).1) := by
  cases hf : env.failure with
  | some err =>
    simp only [hostStep, hf]
    exact .of_closing (closing_renamed_some _) (by simp)
  | none =>
    simp only [hostStep, hf, arrive_fs]
    cases bound : s.fs.bound (tmpName path) with
    | none => exact .of_closing (closing_renamed_some _) (by simp)
    | some j => exact ⟨.done rfl, Or.inr ⟨rfl, rfl, owned.read_rename bound⟩⟩

private theorem goes_write {file : Nat} {text piece : Str} {ps : List Str}
    (whole : text ++ (piece :: ps).flatten = content)
    (owned : s.fs.Owned (tmpName path) path file text) :
    Goes path content last s (.write file text.length piece)
      (hostStep d env s (.write file text.length piece)).2
      (wrote path file text.length piece ps
        (hostStep d env s (.write file text.length piece)).1) := by
  simp only [hostStep, arrive_fs]
  generalize (if env.failure = none then piece.length else min env.written piece.length) = n
  by_cases full : n = piece.length
  · rw [wrote, if_pos full, full, List.take_length]
    have goesOn : Filling path content file (text ++ piece)
        (writePieces file (text ++ piece).length ps >>= promote path file) :=
      .writing _ ps (by rw [← whole, List.flatten_cons, List.append_assoc])
    rw [List.length_append] at goesOn
    exact .of_filling goesOn (fun _ => owned.writeAt piece)
      (Fs.read_writeAt_of_bound_ne owned.target _ _)
  · rw [wrote, if_neg full]
    exact .of_leaving (leaving_promote _ _ _) (fun _ => ⟨_, owned.bound, owned.target, rfl⟩)
      (Fs.read_writeAt_of_bound_ne owned.target _ _)

private theorem goes_close {file : Nat} (offset : Nat) (piece : Str)
    (owned : last → ∃ text, s.fs.Owned (tmpName path) path file text) :
    Goes path content last s (.buffered piece) (hostStep d env s (.buffered piece)).2
      (left file offset (hostStep d env s (.buffered piece)).1) := by
  simp only [hostStep]
  unfold left
  split_ifs
  · exact .of_closing .ret (by simp)
  · exact .of_leaving (.write _ _) (by simpa using owned) (by simp)

/-- What a failed stream writes once more goes to its file, which the path does not show. -/
private theorem goes_rewrite {file : Nat} (offset : Nat) (rest : Str)
    (owned : ∃ text, s.fs.Owned (tmpName path) path file text) :
    Goes path content last s (.write file offset rest)
      (hostStep d env s (.write file offset rest)).2 (.ret false) := by
  obtain ⟨text, own⟩ := owned
  simp only [hostStep, arrive_fs]
  exact .of_closing .ret (Fs.read_writeAt_of_bound_ne own.target _ _)

private theorem goes_unlink {file : Nat} {k : Unit → Code Bool}
    (rest : ∀ a, Leaving path file (k a))
    (owned : last → ∃ text, s.fs.Owned (tmpName path) path file text) :
    Goes path content last s (.remove (tmpName path)) (hostStep d env s (.remove (tmpName path))).2
      (k (hostStep d env s (.remove (tmpName path))).1) := by
  cases hf : env.failure with
  | some err =>
    simp only [hostStep, hf]
    exact .of_leaving (rest _) (by simpa using owned) (by simp)
  | none =>
    simp only [hostStep, hf, arrive_fs]
    refine .of_leaving (rest _) (fun now => ?_) (Fs.read_unlink_of_ne (tmpName_ne path))
    obtain ⟨text, own⟩ := owned now
    exact ⟨text, own.unlink (Ne.symm (tmpName_ne path))⟩

private theorem goes_remove {k : Unit → Code Bool} (rest : ∀ a, Closing path (k a)) :
    Goes path content last s (.remove (tmpName path)) (hostStep d env s (.remove (tmpName path))).2
      (k (hostStep d env s (.remove (tmpName path))).1) := by
  refine .of_closing (rest _) ?_
  cases hf : env.failure with
  | some err => simp [hostStep, hf]
  | none =>
    simp only [hostStep, hf, arrive_fs]
    exact Fs.read_unlink_of_ne (tmpName_ne path)

/-- A step of a call that changes the temporary file only if it is the last to have opened
it. -/
theorem goes_next {o : Op} {k : Ans o → Code Bool} (h : Next path content last s.fs o k)
    (allowed : touches o → last) :
    Goes path content (opens path env o = true ∨ last) s o (hostStep d env s o).2
      (k (hostStep d env s o).1) := by
  have was : ∀ {o : Op}, opens path env o = false → opens path env o = true ∨ last → last :=
    fun shut now => now.resolve_left (by rw [shut]; exact Bool.false_ne_true)
  cases h with
  | opens => exact goes_open.of_imp fun _ => trivial
  | buffers owned => exact goes_buffer fun now => owned (was (o := .buffer content) rfl now)
  | writes whole owned => exact goes_write whole (owned (allowed trivial))
  | renames owned => exact goes_promote (owned (allowed trivial))
  | leaves text rest owned =>
    refine .of_leaving (rest _) (fun now => ?_) (by simp [hostStep])
    simp only [hostStep, arrive_fs]
    exact owned (was (o := .setLastError text) rfl now)
  | unlinks rest owned =>
    exact goes_unlink rest fun now => owned (was (o := .remove (tmpName path)) rfl now)
  | closes offset piece owned =>
    exact goes_close offset piece fun now => owned (was (o := .buffered piece) rfl now)
  | rewrites offset rest owned => exact goes_rewrite offset rest (owned (allowed trivial))
  | reports text rest => exact .of_closing (rest _) (by simp [hostStep])
  | removes rest => exact goes_remove rest

theorem fs_of_passive {o : Op} {k : Ans o → Code Bool} (h : Next path content last s.fs o k)
    (passive : ¬ touches o) (shut : opens path env o = false) :
    (hostStep d env s o).2.fs = s.fs ∨ (hostStep d env s o).2.fs = s.fs.unlink (tmpName path) := by
  cases h with
  | opens =>
    cases hf : env.failure with
    | some err => simp [hostStep, hf]
    | none => simp [opens, hf] at shut
  | buffers owned => exact Or.inl (by simp [hostStep])
  | writes whole owned => exact absurd trivial passive
  | renames owned => exact absurd trivial passive
  | leaves text rest owned => exact Or.inl (by simp [hostStep])
  | unlinks rest owned => cases hf : env.failure <;> simp [hostStep, hf]
  | closes offset piece owned => exact Or.inl (by simp [hostStep])
  | rewrites offset rest owned => exact absurd trivial passive
  | reports text rest => exact Or.inl (by simp [hostStep])
  | removes rest => cases hf : env.failure <;> simp [hostStep, hf]

theorem hasOpen_before {o : Op} {k : Ans o → Code Bool} (h : Next path content last s.fs o k)
    (shut : opens path env o = false) (now : hasOpen (k (hostStep d env s o).1)) :
    hasOpen (.op o k) := by
  have later : ∀ {a : Ans o}, hasOpen (k a) →
      ¬ (Prog.op o k : Code Bool).Only fun o => ¬ touches o := by
    intro a open_ only
    have rest := only.2 a
    generalize k a = p at open_ rest
    cases p with
    | ret r => exact open_ trivial
    | raise e => exact open_ trivial
    | op o' k' =>
      cases o' with
      | openTrunc name => exact open_
      | _ => exact open_ rest
  cases h with
  | opens =>
    cases hf : env.failure with
    | some err =>
      simp only [hostStep, hf] at now
      exact absurd now closing_opened_none.not_hasOpen
    | none => simp [opens, hf] at shut
  | rewrites => exact fun only => only.1 trivial
  | _ => exact later now

end Steps

end Webengine.Control.Replacement
