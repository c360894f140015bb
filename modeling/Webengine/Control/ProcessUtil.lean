/- source: backend/src/ProcessUtil.cpp
   digest: The pidfile, the signals and the atomic file replacement the controllers share. -/

import Webengine.Control.Host
import Webengine.Library.Texts

set_option autoImplicit false
set_option relaxedAutoImplicit false

namespace Webengine.Control.ProcessUtil

open Webengine.Engine.Roles (Str)
open Webengine.Control.Host
open Webengine.Library.Decimals (integer isSpace scanInt)
open Webengine.Library.Files (Fs)
open Webengine.Library.Machines
open Webengine.Library.Programs (Prog)
open Webengine.Library.Texts (cut find)

/-- The program of one step. -/
def sys (o : Op) : Code (Ans o) := Prog.perform o

/-- `long` has 64 bits. -/
def longMin : Int := -9223372036854775808

def longMax : Int := 9223372036854775807

/-- `f >> pid` for a `long`: an empty text leaves it, garbage sets it to 0, and a number out
of range to the nearest bound. -/
def extractLong (pid : Int) (text : Str) : Int :=
  if text.dropWhile isSpace = [] then pid
  else max longMin (min longMax ((scanInt text).getD 0))

/-- The conversion to the 32 bits of `pid_t`. -/
def toPidT (pid : Int) : Int := (pid + 2147483648) % 4294967296 - 2147483648

/-- The pid, or -1 if the file is missing, empty or holds no positive number. -/
def readPid (pidfile : Str) : Code Int := do
  match ← sys (.readPidfile pidfile) with
  | none => pure (-1)
  | some text =>
    let pid := extractLong (-1) text
    pure (if 0 < pid then pid else -1)

/-- Whether the process has a name with the given part, by its first line in /proc. -/
def pidIs (pid : Int) (nameSubstr : Str) : Code Bool := do
  match ← sys (.readComm pid) with
  | none => pure false
  | some text => pure (find nameSubstr (cut '\n' text)).isSome

def isRunning (pidfile nameSubstr : Str) : Code Bool := do
  let pid ← readPid pidfile
  if pid ≤ 0 then pure false
  else match ← sys (.kill (toPidT pid) 0) with
    | some _ => pure false
    | none => pidIs pid nameSubstr

/-- The errors of this and the next functions go to `last_error_`. -/
def signalPid (pid sig : Int) : Code Bool := do
  match ← sys (.kill (toPidT pid) sig) with
  | some e =>
    sys (.setLastError ("kill(".toList ++ integer pid ++ ", ".toList ++ integer sig ++
      ") failed: ".toList ++ strerror e))
    pure false
  | none => pure true

/-- The pieces go out one after the other. A piece that is not written completely stops the stream:
the answer is that piece, and where the stream stands in the file. -/
def writePieces (file : Nat) : Nat → List Str → Code (Option (Nat × Str))
  | _, [] => pure none
  | offset, piece :: rest => do
    let n ← sys (.write file offset piece)
    if n = piece.length then writePieces file (offset + piece.length) rest
    else pure (some (offset + n, piece))

/-- The end of a stream that has failed: its destructor writes what is still buffered once
more. -/
def closeFailed (file offset : Nat) (piece : Str) : Code Unit := do
  let left ← sys (.buffered piece)
  if left = [] then pure ()
  else
    let _ ← sys (.write file offset left)
    pure ()

def tmpName (path : Str) : Str := path ++ ".tmp".toList

/-- Write to the temporary name, then rename. The stream is closed at the end of its block: when
the function returns after a failed flush, and before the renaming else. -/
def writeFileAtomic (path content : Str) : Code Bool := do
  match ← sys (.openTrunc (tmpName path)) with
  | none =>
    sys (.setLastError ("cannot write ".toList ++ tmpName path ++ " (permission?)".toList))
    pure false
  | some file =>
    match ← writePieces file 0 (← sys (.buffer content)) with
    | none =>
      match ← sys (.rename (tmpName path) path) with
      | some e =>
        sys (.setLastError ("rename to ".toList ++ path ++ " failed: ".toList ++ strerror e))
        sys (.remove (tmpName path))
        pure false
      | none => pure true
    | some (offset, piece) =>
      -- never promote a truncated file
      sys (.setLastError ("failed writing ".toList ++ tmpName path ++ " (disk full?)".toList))
      sys (.remove (tmpName path))
      closeFailed file offset piece
      pure false

/-- One level; an existing directory will do. -/
def ensureDir (path : Str) : Code Bool := do
  match ← sys (.mkdir path) with
  | none => pure true
  | some .eexist => pure true
  | some _ => pure false

section Only

/-- The steps of a probe. -/
def observes : Op → Prop
  | .readPidfile _ => True
  | .readComm _ => True
  | .kill _ sig => sig = 0
  | _ => False

theorem readPid_only (pidfile : Str) : (readPid pidfile).Only observes := by
  refine ⟨trivial, fun text => ?_⟩
  cases text <;> trivial

theorem isRunning_only (pidfile nameSubstr : Str) :
    (isRunning pidfile nameSubstr).Only observes := by
  refine Prog.only_bind (readPid_only pidfile) fun pid => ?_
  split
  · trivial
  · refine ⟨rfl, fun failed => ?_⟩
    cases failed with
    | some e => trivial
    | none =>
      refine ⟨trivial, fun text => ?_⟩
      cases text <;> trivial

theorem signalPid_only {A : Op → Prop} {sig : Int} (kill : ∀ pid, A (.kill pid sig))
    (reports : ∀ text, A (.setLastError text)) (pid : Int) : (signalPid pid sig).Only A := by
  refine ⟨kill _, fun failed => ?_⟩
  cases failed with
  | none => trivial
  | some e => exact ⟨reports _, fun _ => trivial⟩

/-- The steps of a file replacement. -/
def replaces : Op → Prop
  | .openTrunc _ => True
  | .buffer _ => True
  | .write _ _ _ => True
  | .buffered _ => True
  | .rename _ _ => True
  | .remove _ => True
  | .setLastError _ => True
  | _ => False

private theorem writePieces_only (file offset : Nat) (ps : List Str) :
    (writePieces file offset ps).Only replaces := by
  induction ps generalizing offset with
  | nil => trivial
  | cons piece ps ih =>
    refine ⟨trivial, fun n => ?_⟩
    simp only [Prog.bind]
    split
    · exact ih _
    · trivial

private theorem closeFailed_only (file offset : Nat) (piece : Str) :
    (closeFailed file offset piece).Only replaces := by
  refine ⟨trivial, fun left => ?_⟩
  simp only [Prog.bind]
  split
  · trivial
  · exact ⟨trivial, fun _ => trivial⟩

theorem writeFileAtomic_only (path content : Str) :
    (writeFileAtomic path content).Only replaces := by
  refine ⟨trivial, fun file => ?_⟩
  cases file with
  | none => exact ⟨trivial, fun _ => trivial⟩
  | some file =>
    refine ⟨trivial, fun ps => ?_⟩
    change (writePieces file 0 ps >>= _).Only replaces
    refine Prog.only_bind (writePieces_only file 0 ps) fun failed => ?_
    rcases failed with _ | ⟨offset, piece⟩
    · refine ⟨trivial, fun failed => ?_⟩
      cases failed with
      | none => trivial
      | some e => exact ⟨trivial, fun _ => ⟨trivial, fun _ => trivial⟩⟩
    · refine ⟨trivial, fun _ => ⟨trivial, fun _ => ?_⟩⟩
      change (closeFailed file offset piece >>= fun _ => .ret false).Only replaces
      exact Prog.only_bind (closeFailed_only file offset piece) fun _ => trivial

theorem ensureDir_only {S : Op → Prop} (path : Str) (mkdir : S (.mkdir path)) :
    (ensureDir path).Only S := by
  refine ⟨mkdir, fun failed => ?_⟩
  cases failed with
  | none => trivial
  | some e => cases e <;> trivial

variable {d : Daemon}

theorem quiet_of_observes {o : Op} (h : observes o) : quiet d o := by
  cases o with
  | kill pid sig =>
    obtain rfl : sig = 0 := h
    exact (by decide : (0 : Int) ≠ sigint)
  | readPidfile path => trivial
  | readComm pid => trivial
  | _ => exact h.elim

theorem quiet_of_replaces {o : Op} (h : replaces o) : quiet d o := by
  cases o <;> first | exact h.elim | trivial

end Only

section Specs

variable {d : Daemon} {E : Env → Prop}

/-- Only the temporary file differs. -/
structure SameBut (tmp : Str) (s s' : State) : Prop where
  http : s'.http = s.http
  https : s'.https = s.https
  files : ∀ c, c ≠ tmp → s'.fs.read c = s.fs.read c

theorem SameBut.trans {tmp : Str} {s s' s'' : State} (h : SameBut tmp s s')
    (h' : SameBut tmp s' s'') : SameBut tmp s s'' where
  http := h'.http.trans h.http
  https := h'.https.trans h.https
  files c hc := (h'.files c hc).trans (h.files c hc)

/-- A step of a file replacement that failed. -/
def FileFailed (e : Event (host d)) : Prop :=
  e.env.failure ≠ none ∧ match e.op with
    | .openTrunc _ => True
    | .write _ _ _ => True
    | .rename _ _ => True
    | _ => False

private theorem sameBut_writeAt {tmp : Str} {file : Nat} {s : State}
    (apart : ∀ c, c ≠ tmp → s.fs.bound c ≠ some file) (env : Env) (offset : Nat) (piece : Str) :
    SameBut tmp s { arrive d env s with fs := s.fs.writeAt file offset piece } where
  http := by simp
  https := by simp
  files c hc := Fs.read_writeAt_of_bound_ne (apart c hc) _ _

private theorem writePieces_spec {tmp : Str} {file : Nat} (ps : List Str) {s : State}
    (bound : s.fs.bound tmp = some file) :
    wp (host d) E (writePieces file (s.fs.content file).length ps) (fun r s' l =>
      SameBut tmp s s' ∧ s'.fs.bound tmp = some file ∧
        ((r = .ok none ∧ s'.fs.content file = s.fs.content file ++ ps.flatten) ∨
          ((∃ offset piece, r = .ok (some (offset, piece))) ∧ ∃ e ∈ l, FileFailed e))) s := by
  induction ps generalizing s with
  | nil => exact ⟨⟨rfl, rfl, fun _ _ => rfl⟩, bound, Or.inl ⟨rfl, by simp⟩⟩
  | cons piece ps ih =>
    intro env he
    have apart : ∀ c, c ≠ tmp → s.fs.bound c ≠ some file := fun c hc shown =>
      hc (s.fs.single c tmp file shown bound)
    simp only [hostStep, arrive_fs]
    generalize hn : (if env.failure = none then piece.length else min env.written piece.length) = n
    have same := sameBut_writeAt (d := d) apart env (s.fs.content file).length (piece.take n)
    change wp (host d) E (if n = piece.length then
      writePieces file ((s.fs.content file).length + piece.length) ps
      else .ret (some ((s.fs.content file).length + n, piece))) _ _
    by_cases full : n = piece.length
    · rw [if_pos full]
      rw [full, List.take_length] at same ⊢
      generalize hs₁ : ({ arrive d env s with
        fs := s.fs.writeAt file (s.fs.content file).length piece } : State) = s₁ at same ⊢
      have bound₁ : s₁.fs.bound tmp = some file := by
        rw [← hs₁]
        exact bound
      have content₁ : s₁.fs.content file = s.fs.content file ++ piece := by
        rw [← hs₁]
        exact Fs.content_writeAt_length s.fs file piece
      have rest := ih bound₁
      rw [content₁, List.length_append] at rest
      refine wp_mono rest ?_
      rintro r s' l ⟨same', bound', outcome⟩
      refine ⟨same.trans same', bound', ?_⟩
      rcases outcome with ⟨rfl, done⟩ | ⟨stopped, e, he, failed⟩
      · exact Or.inl ⟨rfl, by rw [done]; simp⟩
      · exact Or.inr ⟨stopped, e, List.mem_cons_of_mem _ he, failed⟩
    · rw [if_neg full]
      have failed : env.failure ≠ none := fun fine => full (by rw [← hn, if_pos fine])
      refine ⟨same, bound, Or.inr ⟨⟨_, _, rfl⟩, ?_⟩⟩
      exact ⟨_, List.mem_singleton_self _, failed, trivial⟩

theorem tmpName_ne (path : Str) : path ≠ tmpName path := by
  intro h
  have hlen := congrArg List.length h
  simp [tmpName] at hlen

private theorem cleanUp_spec (tmp text : Str) (s : State) :
    wp (host d) E (do sys (.setLastError text); sys (.remove tmp); pure false)
      (fun r s' _ => r = .ok false ∧ SameBut tmp s s') s := by
  intro env he env' he'
  simp only [hostStep]
  cases hf : env'.failure with
  | some err => exact ⟨rfl, by simp, by simp, fun c hc => by simp⟩
  | none =>
    refine ⟨rfl, by simp, by simp, fun c hc => ?_⟩
    simp only [arrive_fs]
    exact Fs.read_unlink_of_ne hc

/-- What a stream writes at its end goes to the temporary file, or to none that has a name. -/
private theorem closeFailed_spec {tmp : Str} {file : Nat} {s : State}
    (apart : ∀ c, c ≠ tmp → s.fs.bound c ≠ some file) (offset : Nat) (piece : Str) :
    wp (host d) E (closeFailed file offset piece)
      (fun r s' _ => r = .ok () ∧ SameBut tmp s s') s := by
  intro env he
  simp only [hostStep]
  generalize (pieces env.cuts piece).headD [] = left
  change wp (host d) E (if left = [] then .ret () else .op (.write file offset left) fun _ =>
    .ret ()) _ _
  split_ifs
  · exact ⟨rfl, by simp, by simp, fun c hc => by simp⟩
  · intro env' he'
    have apart' : ∀ c, c ≠ tmp → (arrive d env s).fs.bound c ≠ some file := by
      rw [arrive_fs]
      exact apart
    have same := sameBut_writeAt (d := d) apart' env' offset
    simp only [hostStep]
    have first : SameBut tmp s (arrive d env s) := ⟨by simp, by simp, fun c _ => by simp⟩
    rw [arrive_fs env']
    exact ⟨rfl, first.trans (same _)⟩

private theorem giveUp_spec {tmp : Str} {file : Nat} {s : State} (text : Str)
    (bound : s.fs.bound tmp = some file) (offset : Nat) (piece : Str) :
    wp (host d) E (do
      sys (.setLastError text)
      sys (.remove tmp)
      closeFailed file offset piece
      pure false) (fun r s' _ => r = .ok false ∧ SameBut tmp s s') s := by
  have apart : ∀ c, c ≠ tmp → s.fs.bound c ≠ some file := fun c hc shown =>
    hc (s.fs.single c tmp file shown bound)
  intro env he env' he'
  generalize hs' : (hostStep d env' (hostStep d env s (.setLastError text)).2 (.remove tmp)).2 = s'
  have removed : SameBut tmp s s' ∧ ∀ c, c ≠ tmp → s'.fs.bound c = s.fs.bound c := by
    rw [← hs']
    simp only [hostStep]
    cases hf : env'.failure with
    | some err => exact ⟨⟨by simp, by simp, fun c hc => by simp⟩, fun c hc => by simp⟩
    | none =>
      refine ⟨⟨by simp, by simp, fun c hc => ?_⟩, fun c hc => ?_⟩
      · simp only [arrive_fs]
        exact Fs.read_unlink_of_ne hc
      · simp only [arrive_fs]
        exact Function.update_of_ne hc _ _
  have closes : wp (host d) E (closeFailed file offset piece)
      (fun r s'' _ => r = .ok () ∧ SameBut tmp s' s'') s' :=
    closeFailed_spec (fun c hc => (removed.2 c hc).trans_ne (apart c hc)) offset piece
  change wp (host d) E (closeFailed file offset piece >>= fun _ => .ret false) _ _
  rw [wp_bind]
  refine wp_mono closes ?_
  rintro r s'' l ⟨rfl, same⟩
  exact ⟨rfl, removed.1.trans same⟩

/-- The rest of a replacement once its pieces are written, or could not be. -/
def promote (path : Str) (file : Nat) : Option (Nat × Str) → Code Bool
  | none => do
    match ← sys (.rename (tmpName path) path) with
    | some e =>
      sys (.setLastError ("rename to ".toList ++ path ++ " failed: ".toList ++ strerror e))
      sys (.remove (tmpName path))
      pure false
    | none => pure true
  | some (offset, piece) => do
    sys (.setLastError ("failed writing ".toList ++ tmpName path ++ " (disk full?)".toList))
    sys (.remove (tmpName path))
    closeFailed file offset piece
    pure false

/-- The outcome of a replacement of the file `path` by `content`. -/
def Replaced (path content : Str) (s : State) (r : Except Empty Bool) (s' : State)
    (l : List (Event (host d))) : Prop :=
  s'.http = s.http ∧ s'.https = s.https ∧
    ((r = .ok true ∧ s'.fs.read path = some content) ∨
      (r = .ok false ∧ s'.fs.read path = s.fs.read path ∧ ∃ e ∈ l, FileFailed e))

theorem Replaced.of_sameBut {path content : Str} {s s' s'' : State} {r : Except Empty Bool}
    {l : List (Event (host d))} (same : SameBut (tmpName path) s s')
    (h : Replaced path content s' r s'' l) : Replaced path content s r s'' l := by
  obtain ⟨http, https, outcome⟩ := h
  refine ⟨http.trans same.http, https.trans same.https, ?_⟩
  rw [same.files path (tmpName_ne path)] at outcome
  exact outcome

theorem Replaced.append_left {path content : Str} {s s' : State} {r : Except Empty Bool}
    {l : List (Event (host d))} (h : Replaced path content s r s' l) (l₀ : List (Event (host d))) :
    Replaced path content s r s' (l₀ ++ l) := by
  obtain ⟨http, https, done | ⟨rfl, unchanged, e, he, failed⟩⟩ := h
  · exact ⟨http, https, Or.inl done⟩
  · exact ⟨http, https, Or.inr ⟨rfl, unchanged, e, List.mem_append_right _ he, failed⟩⟩

private theorem promote_spec {path content : Str} {file : Nat} {s : State}
    (bound : s.fs.bound (tmpName path) = some file) (full : s.fs.content file = content) :
    wp (host d) E (promote path file none) (Replaced path content s) s := by
  intro env he
  cases hf : env.failure with
  | some err =>
    simp only [hostStep, hf]
    refine wp_mono (cleanUp_spec _ _ _) ?_
    rintro r s' l ⟨hr, same⟩
    refine ⟨by rw [same.http]; simp, by rw [same.https]; simp, Or.inr ⟨hr, ?_, ?_⟩⟩
    · rw [same.files path (tmpName_ne path), arrive_fs]
    · exact ⟨_, List.mem_cons_self, by simp [hf], trivial⟩
  | none =>
    simp only [hostStep, hf, arrive_fs, bound]
    refine ⟨by simp, by simp, Or.inl ⟨rfl, ?_⟩⟩
    rw [Fs.read_rename_target, Fs.read_of_bound bound, full]

/-- A replacement is complete, or it failed at some step and the file is as before. -/
theorem writeFileAtomic_spec (path content : Str) (s : State) :
    wp (host d) E (writeFileAtomic path content) (Replaced path content s) s := by
  intro env he
  cases hf : env.failure with
  | some err =>
    simp only [hostStep, hf]
    intro env' he'
    refine ⟨by simp [hostStep], by simp [hostStep], Or.inr ⟨rfl, by simp [hostStep], ?_⟩⟩
    exact ⟨_, List.mem_cons_self, by simp [hf], trivial⟩
  | none =>
    simp only [hostStep, hf, arrive_fs]
    generalize hs₁ : ({ arrive d env s with fs := (s.fs.openTrunc (tmpName path)).2 } :
      State) = s₁
    generalize hfile : (s.fs.openTrunc (tmpName path)).1 = file
    have same₁ : SameBut (tmpName path) s s₁ := by
      rw [← hs₁]
      exact ⟨by simp, by simp, fun c hc => Fs.read_openTrunc_of_ne hc⟩
    have bound₁ : s₁.fs.bound (tmpName path) = some file := by
      rw [← hs₁, ← hfile]
      exact Fs.bound_openTrunc s.fs (tmpName path)
    have content₁ : s₁.fs.content file = [] := by
      rw [← hs₁, ← hfile]
      exact Fs.content_openTrunc s.fs (tmpName path)
    clear hs₁ hfile
    -- the stream cuts the text
    intro env' he'
    simp only [hostStep]
    have flat : (pieces env'.cuts content).flatten = content := flatten_pieces _ _
    generalize pieces env'.cuts content = ps at flat
    have same₂ : SameBut (tmpName path) s (arrive d env' s₁) :=
      same₁.trans ⟨by simp, by simp, fun c _ => by simp⟩
    have writing := writePieces_spec (d := d) (E := E) ps (s := arrive d env' s₁)
      (by rw [arrive_fs]; exact bound₁)
    rw [arrive_fs, content₁] at writing
    change wp (host d) E (writePieces file 0 ps >>= promote path file) _ _
    rw [wp_bind]
    refine wp_mono writing ?_
    rintro r s' l ⟨same, bound', outcome⟩
    have same₃ := same₂.trans same
    rcases outcome with ⟨rfl, full⟩ | ⟨⟨offset, piece, rfl⟩, e, he, failed⟩
    · refine wp_mono (promote_spec bound' (full.trans flat)) fun r' s'' l' done => ?_
      exact (done.of_sameBut same₃).append_left (_ :: _ :: l)
    · refine wp_mono (giveUp_spec _ bound' offset piece) ?_
      rintro r' s'' l' ⟨hr, same'⟩
      have same₄ := same₃.trans same'
      refine ⟨same₄.http, same₄.https, Or.inr ⟨hr, same₄.files path (tmpName_ne path), e, ?_,
        failed⟩⟩
      simp [he]

end Specs

end Webengine.Control.ProcessUtil
