import Keyroost.Library.Crash
import Keyroost.Library.RustStr
import Keyroost.Library.Throughout

/-!
# Files replaced together

Every new version is written beside its file first; when all are written, each is renamed over its
file. Modelled from `keyroost-pgpkey/src/files.rs` as a program of file operations. Any of them may
fail, before its work or after it, and the program may be cut off at any point.

`Sound` is what holds of the files throughout: every target has its old or its new contents. The
program has a lemma for each of its three parts, the removal of what was left behind, the writing
and the renaming, each by induction on the files that are left. Two conditions on the file system
stand apart, since each is needed for one part of the result alone: that a removal does not fail
(`Removes`), and that a creation fails for no other reason than that the file is there
(`CreatesFrankly`). `replace_not_exact` shows what happens without either.
-/

namespace Keyroost.PgpKey

open Crash (Disk)
open Dialogue (Device Cut Runs Throughout)

abbrev Path := RustStr

/-! ### File operations -/

inductive IoKind where
  | alreadyExists
  | notFound
  | other
deriving DecidableEq, Repr

structure IoError where
  kind : IoKind
  text : RustStr
deriving DecidableEq, Repr

/-- An error of the system, whose own text is left out. -/
def sysError (kind : IoKind) : IoError := ⟨kind, []⟩

inductive FileOp where
  | create (p : Path) (secret : Bool)
  | write (p : Path) (contents : List UInt8)
  | flush (p : Path)
  | syncAll (p : Path)
  | rename (p q : Path)
  | remove (p : Path)
deriving DecidableEq, Repr

abbrev FileReply : FileOp → Type := fun _ => Except IoKind Unit

abbrev FileTalk (α : Type) : Type := Dialogue FileReply α

/-- What the file system may answer, and the files then. What failed may have been done: a file may
be there although its creation was refused, and a rename may have taken place. -/
inductive Step (d : Disk Path) : (op : FileOp) → FileReply op → Disk Path → Prop
  | created {p : Path} {secret : Bool} (hfree : d p = none) :
      Step d (.create p secret) (.ok ()) (Function.update d p (some []))
  | taken {p : Path} {secret : Bool} (htaken : d p ≠ none) :
      Step d (.create p secret) (.error .alreadyExists) d
  | notCreated {p : Path} {secret : Bool} : Step d (.create p secret) (.error .other) d
  | createdLate {p : Path} {secret : Bool} (hfree : d p = none) :
      Step d (.create p secret) (.error .other) (Function.update d p (some []))
  | wrote {p : Path} {contents old : List UInt8} (hold : d p = some old) :
      Step d (.write p contents) (.ok ()) (Function.update d p (some (old ++ contents)))
  | wroteSome {p : Path} {contents old : List UInt8} (n : Nat) (hold : d p = some old) :
      Step d (.write p contents) (.error .other)
        (Function.update d p (some (old ++ contents.take n)))
  | wroteGone {p : Path} {contents : List UInt8} (a : Except IoKind Unit) (hgone : d p = none)
      (ha : a ≠ .error .alreadyExists) : Step d (.write p contents) a d
  | flushed {p : Path} (a : Except IoKind Unit) (ha : a ≠ .error .alreadyExists) :
      Step d (.flush p) a d
  | synced {p : Path} (a : Except IoKind Unit) (ha : a ≠ .error .alreadyExists) :
      Step d (.syncAll p) a d
  | renamed {p q : Path} {content : List UInt8} (a : Except IoKind Unit)
      (hcontent : d p = some content) :
      Step d (.rename p q) a (Function.update (Function.update d p none) q (some content))
  | notRenamed {p q : Path} (kind : IoKind) : Step d (.rename p q) (.error kind) d
  | removed {p : Path} (a : Except IoKind Unit) (ha : a = .ok () ∨ a = .error .other) :
      Step d (.remove p) a (Function.update d p none)
  | notRemoved {p : Path} : Step d (.remove p) (.error .other) d
  | nothingRemoved {p : Path} (hgone : d p = none) : Step d (.remove p) (.error .notFound) d

/-! ### Writing -/

def perform (op : FileOp) : FileTalk (Except IoKind Unit) := Dialogue.query op

/-- `?` between operations. -/
def andThen (first second : FileTalk (Except IoKind Unit)) : FileTalk (Except IoKind Unit) := do
  match ← first with
  | .ok () => second
  | .error e => return .error e

/-- `let _ = remove_file(path)` -/
def removeFile (path : Path) : FileTalk Unit := do
  let _ ← perform (.remove path)
  return ()

def createThen (path : Path) (secret : Bool) (write : FileTalk (Except IoKind Unit)) :
    FileTalk (Except IoError Unit) := do
  match ← perform (.create path secret) with
  | .error .alreadyExists =>
      return .error ⟨.alreadyExists, path ++ " already exists; choose another name".toList⟩
  | .error e => return .error (sysError e)
  | .ok () =>
      match ← write with
      | .ok () => return .ok ()
      | .error e => do
          removeFile path
          return .error (sysError e)

def writeNew (path : Path) (contents : List UInt8) (secret : Bool) :
    FileTalk (Except IoError Unit) :=
  createThen path secret
    (andThen (perform (.write path contents))
      (andThen (perform (.flush path)) (perform (.syncAll path))))

/-! ### Replacing -/

structure File where
  path : Path
  contents : List UInt8
  secret : Bool
deriving DecidableEq, Repr

def tmpFor (path : Path) : Path := path ++ ".tmp".toList

def File.tmp (f : File) : Path := tmpFor f.path

def removeAll : List Path → FileTalk Unit
  | [] => return ()
  | t :: ts => do
      removeFile t
      removeAll ts

def leftOver (tmp : Path) : IoError where
  kind := .alreadyExists
  text := tmp ++ (" is left over from an earlier attempt; delete it and try again " ++
    "(nothing was changed)").toList

/-- The first loop of `replace`: the files still to write, and those written. -/
def writeFiles : List File → List Path → FileTalk (Except IoError Unit)
  | [], _ => return .ok ()
  | f :: fs, written => do
      match ← writeNew f.tmp f.contents f.secret with
      | .ok () => writeFiles fs (written ++ [f.tmp])
      | .error e => do
          removeAll written
          if e.kind = .alreadyExists then return .error (leftOver f.tmp)
          else do
            removeFile f.tmp
            return .error e

def cannotReplace (path : Path) (e : IoError) (done : List Path) : IoError where
  kind := e.kind
  text :=
    "cannot replace ".toList ++ path ++ ": ".toList ++ e.text ++
      if done = [] then " (nothing was changed)".toList
      else "; ".toList ++ " and ".toList.intercalate done ++ " was already updated".toList

/-- The second loop: the files still to rename, and the paths already replaced. -/
def renameFiles : List File → List Path → FileTalk (Except IoError Unit)
  | [], _ => return .ok ()
  | f :: fs, done => do
      match ← perform (.rename f.tmp f.path) with
      | .ok () => renameFiles fs (done ++ [f.path])
      | .error e => do
          removeAll ((f :: fs).map File.tmp)
          return .error (cannotReplace f.path (sysError e) done)

def replace (files : List File) : FileTalk (Except IoError Unit) := do
  match ← writeFiles files [] with
  | .error e => return .error e
  | .ok () => renameFiles files []

/-! ### What is required -/

def temps (files : List File) : List Path := files.map File.tmp

/-- The files with these replaced. -/
def replaced (d : Disk Path) (files : List File) : Disk Path :=
  files.foldl (fun d f => Function.update d f.path (some f.contents)) d

/-- Removing a file does not fail. -/
def Removes : (op : FileOp) → FileReply op → Prop
  | .remove _, a => a ≠ .error .other
  | _, _ => True

/-- Creating a file fails for no other reason than that it is there. -/
def CreatesFrankly (d : Disk Path) : (op : FileOp) → FileReply op → Prop
  | .create p _, a => a = .error .other → d p = none
  | _, _ => True

/-- The file system: a `tidy` one removes what it is asked to, and a `frank` one creates where
nothing is. The two are asked for apart: the first is what this call's own files rest on, the
second what the files of other runs do. -/
def fileSystem (tidy frank : Prop) : Device FileReply (Disk Path) :=
  fun d op a e => Step d op a e ∧ (tidy → Removes op a) ∧ (frank → CreatesFrankly d op a)

/-- After the first `k` files: the paths that are no temporary ones. -/
def Upto (d : Disk Path) (files : List File) (k : Nat) (e : Disk Path) : Prop :=
  ∀ q, q ∉ temps files → e q = replaced d (files.take k) q

/-- At every point a prefix was replaced; temporary files of others are as they were. -/
def Sound (frank : Prop) (d : Disk Path) (files : List File) (e : Disk Path) : Prop :=
  (∃ k, k ≤ files.length ∧ Upto d files k e) ∧
    (frank → ∀ t ∈ temps files, d t ≠ none → e t = d t)

variable {tidy frank : Prop} {d e : Disk Path} {files : List File}

/-- Nothing but one of our own temporary files changed. -/
theorem Sound.of_only {e' : Disk Path} {t : Path} (h : Sound frank d files e)
    (ht : t ∈ temps files) (hours : frank → d t = none) (honly : ∀ q, q ≠ t → e' q = e q) :
    Sound frank d files e' := by
  obtain ⟨⟨k, hk, hupto⟩, hothers⟩ := h
  refine ⟨⟨k, hk, fun q hq => ?_⟩, ?_⟩
  · rw [honly q fun hsame => hq (hsame ▸ ht)]
    exact hupto q hq
  · intro hfrank t' ht' hsome
    rw [honly t' fun hsame => hsome (hsame ▸ hours hfrank)]
    exact hothers hfrank t' ht' hsome

theorem of_error_eq_ok {κ α : Type} {k : κ} {a : α} {P : Prop}
    (h : (Except.error k : Except κ α) = .ok a) : P := nomatch h

theorem of_ok_eq_error {κ α : Type} {k : κ} {a : α} {P : Prop}
    (h : (Except.ok a : Except κ α) = .error k) : P := nomatch h

/-! ### Removing -/

/-- Removing one of our own temporary files. -/
theorem throughout_removeFile {t : Path} (ht : t ∈ temps files) (hours : frank → d t = none)
    (h : Sound frank d files e) :
    (removeFile t).Throughout (fileSystem tidy frank) (Sound frank d files)
      (fun _ e' => (∀ q, q ≠ t → e' q = e q) ∧ (tidy → e' t = none)) e := by
  refine Throughout.bind (Throughout.query h ?_)
  rintro a e' ⟨hstep, hremoves, -⟩
  cases hstep with
  | removed a ha =>
      have honly : ∀ q, q ≠ t → Function.update e t none q = e q :=
        fun q hq => Function.update_of_ne hq none e
      have hsound := h.of_only ht hours honly
      exact ⟨hsound, hsound, honly, fun _ => Function.update_self ..⟩
  | notRemoved => exact ⟨h, h, fun _ _ => rfl, fun htidy => absurd rfl (hremoves htidy)⟩
  | nothingRemoved hgone => exact ⟨h, h, fun _ _ => rfl, fun _ => hgone⟩

theorem throughout_removeAll {ts : List Path} (hts : ∀ t ∈ ts, t ∈ temps files)
    (hours : frank → ∀ t ∈ ts, d t = none) (h : Sound frank d files e) :
    (removeAll ts).Throughout (fileSystem tidy frank) (Sound frank d files)
      (fun _ e' => (∀ q, q ∉ ts → e' q = e q) ∧ (tidy → ∀ t ∈ ts, e' t = none)) e := by
  induction ts generalizing e with
  | nil => exact ⟨h, fun _ _ => rfl, fun _ _ hmem => (List.not_mem_nil hmem).elim⟩
  | cons t ts ih =>
      rw [List.forall_mem_cons] at hts
      refine Throughout.bind ((throughout_removeFile hts.1
        (fun hfrank => hours hfrank t List.mem_cons_self) h).mono ?_)
      rintro - e₁ h₁ ⟨honly, hgone⟩
      refine (ih hts.2 (fun hfrank t' ht' => hours hfrank t' (List.mem_cons_of_mem t ht')) h₁).mono ?_
      rintro - e₂ - ⟨honly', hgone'⟩
      constructor
      · intro q hq
        rw [List.mem_cons, not_or] at hq
        rw [honly' q hq.2, honly q hq.1]
      · intro htidy t' ht'
        by_cases hmem : t' ∈ ts
        · exact hgone' htidy t' hmem
        · obtain rfl := (List.mem_cons.mp ht').resolve_right hmem
          rw [honly' t' hmem]
          exact hgone htidy

/-! ### Writing beside -/

theorem throughout_andThen {first second : FileTalk (Except IoKind Unit)} {J : Disk Path → Prop}
    {Post : Except IoKind Unit → Disk Path → Prop} {D : Device FileReply (Disk Path)}
    (h : first.Throughout D J (fun r t => (r = .ok () → second.Throughout D J Post t) ∧
      ∀ k, r = .error k → Post (.error k) t) e) :
    (andThen first second).Throughout D J Post e := by
  refine Throughout.bind (h.mono ?_)
  rintro (k | ⟨⟩) e' hj ⟨hok, herror⟩
  · exact ⟨hj, herror k rfl⟩
  · exact hok rfl

/-- What writing to the temporary file `t` leaves. -/
def WroteOnly (t : Path) (contents : List UInt8) (e : Disk Path) (r : Except IoKind Unit)
    (e' : Disk Path) : Prop :=
  (∀ q, q ≠ t → e' q = e q) ∧ (r = .ok () → e' t = some contents) ∧ r ≠ .error .alreadyExists

theorem throughout_write {t : Path} (contents : List UInt8) (ht : t ∈ temps files)
    (hours : frank → d t = none) (h : Sound frank d files e) (hempty : e t = some []) :
    (andThen (perform (.write t contents))
      (andThen (perform (.flush t)) (perform (.syncAll t)))).Throughout (fileSystem tidy frank)
        (Sound frank d files) (WroteOnly t contents e) e := by
  have hsync : ∀ e', Sound frank d files e' → (∀ q, q ≠ t → e' q = e q) → e' t = some contents →
      (andThen (perform (.flush t)) (perform (.syncAll t))).Throughout (fileSystem tidy frank)
        (Sound frank d files) (WroteOnly t contents e) e' := by
    intro e' hsound honly hvalue
    apply throughout_andThen
    refine Throughout.query hsound ?_
    rintro a e₁ ⟨hstep, -⟩
    cases hstep with
    | flushed a ha =>
        refine ⟨hsound, fun _ => ?_, ?_⟩
        · refine Throughout.query hsound ?_
          rintro a' e₂ ⟨hstep', -⟩
          cases hstep' with
          | synced a' ha' => exact ⟨hsound, honly, fun _ => hvalue, ha'⟩
        · rintro k rfl
          exact ⟨honly, of_error_eq_ok, ha⟩
  apply throughout_andThen
  refine Throughout.query h ?_
  rintro a e₁ ⟨hstep, -⟩
  cases hstep with
  | @wrote p contents old hold =>
      obtain rfl : [] = old := Option.some.inj (hempty.symm.trans hold)
      have honly : ∀ q, q ≠ t → Function.update e t (some ([] ++ contents)) q = e q :=
        fun q hq => Function.update_of_ne hq _ e
      have hsound := h.of_only ht hours honly
      refine ⟨hsound, fun _ => hsync _ hsound honly (Function.update_self ..), ?_⟩
      intro k hk
      cases hk
  | @wroteSome p contents old n hold =>
      have honly : ∀ q, q ≠ t → Function.update e t (some (old ++ contents.take n)) q = e q :=
        fun q hq => Function.update_of_ne hq _ e
      refine ⟨h.of_only ht hours honly, of_error_eq_ok, ?_⟩
      intro k hk
      cases hk
      refine ⟨honly, of_error_eq_ok, fun hsame => ?_⟩
      cases hsame
  | wroteGone a hgone =>
      rw [hempty] at hgone
      cases hgone

/-- What writing a new file leaves: nothing of a file that was there is touched. -/
def WroteNew (frank : Prop) (t : Path) (contents : List UInt8) (e : Disk Path)
    (r : Except IoError Unit) (e' : Disk Path) : Prop :=
  (∀ q, q ≠ t → e' q = e q) ∧ (r = .ok () → e t = none ∧ e' t = some contents) ∧
    ∀ err, r = .error err → (err.kind = .alreadyExists → e' = e) ∧
      (err.kind ≠ .alreadyExists → frank → e t = none)

theorem throughout_writeNew {t : Path} (contents : List UInt8) (secret : Bool)
    (ht : t ∈ temps files) (hfree : e t = none → d t = none) (h : Sound frank d files e) :
    (writeNew t contents secret).Throughout (fileSystem tidy frank) (Sound frank d files)
      (WroteNew frank t contents e) e := by
  refine Throughout.bind (Throughout.query h ?_)
  rintro a e₁ ⟨hstep, -, hcreates⟩
  cases hstep with
  | created hnone =>
      have honly : ∀ q, q ≠ t → Function.update e t (some []) q = e q :=
        fun q hq => Function.update_of_ne hq _ e
      have hours : frank → d t = none := fun _ => hfree hnone
      have hsound := h.of_only ht hours honly
      refine ⟨hsound, Throughout.bind ((throughout_write contents ht hours hsound
        (Function.update_self ..)).mono ?_)⟩
      rintro (k | ⟨⟩) e₂ hsound₂ ⟨honly₂, hvalue, hkind⟩
      · refine Throughout.bind ((throughout_removeFile ht hours hsound₂).mono ?_)
        rintro - e₃ hsound₃ ⟨honly₃, -⟩
        refine ⟨hsound₃, ?_, of_error_eq_ok, ?_⟩
        · intro q hq
          rw [honly₃ q hq, honly₂ q hq, honly q hq]
        · intro err herr
          obtain rfl := Except.error.inj herr
          refine ⟨fun hsame => absurd ?_ hkind, fun _ _ => hnone⟩
          exact congrArg Except.error hsame
      · refine ⟨hsound₂, ?_, fun _ => ⟨hnone, hvalue rfl⟩, fun _ => of_ok_eq_error⟩
        intro q hq
        rw [honly₂ q hq, honly q hq]
  | taken htaken =>
      refine ⟨h, h, fun _ _ => rfl, of_error_eq_ok, ?_⟩
      intro err herr
      obtain rfl := Except.error.inj herr
      exact ⟨fun _ => rfl, fun hne => absurd rfl hne⟩
  | notCreated =>
      refine ⟨h, h, fun _ _ => rfl, of_error_eq_ok, ?_⟩
      intro err herr
      obtain rfl := Except.error.inj herr
      refine ⟨fun hsame => ?_, fun _ hfrank => hcreates hfrank rfl⟩
      cases hsame
  | createdLate hnone =>
      have honly : ∀ q, q ≠ t → Function.update e t (some []) q = e q :=
        fun q hq => Function.update_of_ne hq _ e
      have hsound := h.of_only ht (fun _ => hfree hnone) honly
      refine ⟨hsound, hsound, honly, of_error_eq_ok, ?_⟩
      intro err herr
      obtain rfl := Except.error.inj herr
      refine ⟨fun hsame => ?_, fun _ _ => hnone⟩
      cases hsame

/-- The files in `done` are written beside their paths, and nothing else happened: no other path has
changed yet. -/
structure Staged (d : Disk Path) (files done : List File) (e : Disk Path) : Prop where
  base : ∀ q, q ∉ temps files → e q = d q
  mine : ∀ f ∈ done, e f.tmp = some f.contents ∧ d f.tmp = none
  nodup : (temps done).Nodup
  others : ∀ t ∈ temps files, t ∉ temps done → e t = d t

theorem Staged.free {done : List File} (h : Staged d files done e) {t : Path}
    (ht : t ∈ temps done) : d t = none := by
  obtain ⟨f, hf, rfl⟩ := List.mem_map.mp ht
  exact (h.mine f hf).2

theorem Staged.notMem {done : List File} (h : Staged d files done e) {t : Path}
    (ht : e t = none) : t ∉ temps done := by
  intro hmem
  obtain ⟨f, hf, rfl⟩ := List.mem_map.mp hmem
  rw [(h.mine f hf).1] at ht
  cases ht

theorem Staged.sound {done : List File} (h : Staged d files done e) : Sound frank d files e := by
  refine ⟨⟨0, Nat.zero_le _, h.base⟩, ?_⟩
  intro _ t ht hsome
  refine h.others t ht fun hmem => ?_
  exact hsome (h.free hmem)

theorem temps_concat (done : List File) (f : File) :
    temps (done ++ [f]) = temps done ++ [f.tmp] := by
  rw [temps, List.map_append]
  rfl

theorem Staged.write {done : List File} {f : File} {e' : Disk Path} (h : Staged d files done e)
    (hf : f.tmp ∈ temps files) (honly : ∀ q, q ≠ f.tmp → e' q = e q) (hnone : e f.tmp = none)
    (hvalue : e' f.tmp = some f.contents) : Staged d files (done ++ [f]) e' := by
  have hnew := h.notMem hnone
  refine ⟨?_, ?_, ?_, ?_⟩
  · intro q hq
    rw [honly q fun hsame => hq (hsame ▸ hf)]
    exact h.base q hq
  · rw [List.forall_mem_append, List.forall_mem_singleton]
    refine ⟨fun g hg => ?_, hvalue, ?_⟩
    · have hne : g.tmp ≠ f.tmp := fun hsame => hnew (hsame ▸ List.mem_map_of_mem hg)
      rw [honly _ hne]
      exact h.mine g hg
    · rw [← h.others _ hf hnew]
      exact hnone
  · rw [temps_concat, List.nodup_append]
    refine ⟨h.nodup, List.pairwise_singleton _ _, ?_⟩
    intro t ht t' ht' hsame
    obtain rfl := List.mem_singleton.mp ht'
    exact hnew (hsame ▸ ht)
  · intro t ht hmem
    rw [temps_concat, List.mem_append, List.mem_singleton, not_or] at hmem
    rw [honly t hmem.2]
    exact h.others t ht hmem.1

/-- What is promised of a result: in a tidy run an error leaves no temporary file of ours. -/
def Left (tidy : Prop) (d : Disk Path) (files : List File) (r : Except IoError Unit)
    (e : Disk Path) : Prop :=
  ∀ err, r = .error err → tidy → ∀ t ∈ temps files, d t = none → e t = none

theorem throughout_writeFiles {fs done : List File} (hfiles : files = done ++ fs)
    (h : Staged d files done e) :
    (writeFiles fs (temps done)).Throughout (fileSystem tidy frank) (Sound frank d files)
      (fun r e' => (r = .ok () → Staged d files files e') ∧ Left tidy d files r e') e := by
  induction fs generalizing done e with
  | nil =>
      rw [List.append_nil] at hfiles
      refine ⟨h.sound, fun _ => ?_, fun _ => of_ok_eq_error⟩
      rw [← hfiles] at h
      exact h
  | cons f fs ih =>
      have hf : f.tmp ∈ temps files := by
        rw [hfiles]
        exact List.mem_map_of_mem (List.mem_append_right _ List.mem_cons_self)
      have hdone : ∀ t ∈ temps done, t ∈ temps files := by
        intro t ht
        rw [hfiles, temps, List.map_append]
        exact List.mem_append_left _ ht
      have hfree : e f.tmp = none → d f.tmp = none := by
        intro hnone
        rw [← h.others _ hf (h.notMem hnone)]
        exact hnone
      refine Throughout.bind ((throughout_writeNew f.contents f.secret hf hfree h.sound).mono ?_)
      rintro (err | ⟨⟩) e₁ hsound ⟨honly, hok, herr⟩
      · obtain ⟨hexists, hother⟩ := herr err rfl
        refine Throughout.bind ((throughout_removeAll hdone
          (fun _ t ht => h.free ht) hsound).mono ?_)
        rintro - e₂ hsound₂ ⟨honly₂, hgone₂⟩
        by_cases hkind : err.kind = .alreadyExists
        · rw [if_pos hkind]
          refine ⟨hsound₂, of_error_eq_ok, ?_⟩
          rintro _ - htidy t ht hnew
          by_cases hmem : t ∈ temps done
          · exact hgone₂ htidy t hmem
          · rw [honly₂ t hmem, hexists hkind, h.others t ht hmem]
            exact hnew
        · rw [if_neg hkind]
          have hours : frank → d f.tmp = none := fun hfrank => hfree (hother hkind hfrank)
          refine Throughout.bind ((throughout_removeFile hf hours hsound₂).mono ?_)
          rintro - e₃ hsound₃ ⟨honly₃, hgone₃⟩
          refine ⟨hsound₃, of_error_eq_ok, ?_⟩
          rintro _ - htidy t ht hnew
          by_cases hsame : t = f.tmp
          · rw [hsame, hgone₃ htidy]
          rw [honly₃ t hsame]
          by_cases hmem : t ∈ temps done
          · exact hgone₂ htidy t hmem
          · rw [honly₂ t hmem, honly t hsame, h.others t ht hmem]
            exact hnew
      · obtain ⟨hnone, hvalue⟩ := hok rfl
        have hnext := ih (by rw [hfiles, List.append_assoc, List.singleton_append])
          (h.write hf honly hnone hvalue)
        rw [temps_concat] at hnext
        exact hnext

/-! ### Renaming -/

/-- The files in `done` are replaced, and those in `fs` still beside their paths. This is the part
in which a stop leaves some files new and some old. -/
structure Renaming (d : Disk Path) (files done fs : List File) (e : Disk Path) : Prop where
  base : ∀ q, q ∉ temps files → e q = replaced d done q
  mine : ∀ f ∈ fs, e f.tmp = some f.contents
  nodup : (temps fs).Nodup
  gone : ∀ t ∈ temps files, t ∉ temps fs → e t = none

theorem Renaming.sound {done fs : List File} (hfiles : files = done ++ fs)
    (hfree : ∀ t ∈ temps files, d t = none) (h : Renaming d files done fs e) :
    Sound frank d files e := by
  refine ⟨⟨done.length, ?_, ?_⟩, fun _ t ht hsome => absurd (hfree t ht) hsome⟩
  · rw [hfiles, List.length_append]
    exact Nat.le_add_right _ _
  · intro q hq
    have htake : files.take done.length = done := by rw [hfiles, List.take_left]
    rw [htake]
    exact h.base q hq

theorem replaced_concat (d : Disk Path) (done : List File) (f : File) :
    replaced d (done ++ [f]) = Function.update (replaced d done) f.path (some f.contents) := by
  rw [replaced, List.foldl_append]
  rfl

theorem Renaming.rename {done fs : List File} {f : File} (hpath : f.path ∉ temps files)
    (hf : f.tmp ∈ temps files) (h : Renaming d files done (f :: fs) e)
    (hfs : ∀ g ∈ fs, g.tmp ∈ temps files) :
    Renaming d files (done ++ [f]) fs
      (Function.update (Function.update e f.tmp none) f.path (some f.contents)) := by
  obtain ⟨hnotMem, hnodup⟩ := List.nodup_cons.mp h.nodup
  have hne : ∀ t ∈ temps files, t ≠ f.path := fun t ht hsame => hpath (hsame ▸ ht)
  refine ⟨?_, ?_, hnodup, ?_⟩
  · intro q hq
    rw [replaced_concat]
    by_cases hsame : q = f.path
    · rw [hsame, Function.update_self, Function.update_self]
    · rw [Function.update_of_ne hsame, Function.update_of_ne hsame,
        Function.update_of_ne (fun htmp : q = f.tmp => hq (htmp ▸ hf))]
      exact h.base q hq
  · intro g hg
    have hmem : g.tmp ∈ temps fs := List.mem_map_of_mem hg
    have hgf : g.tmp ≠ f.tmp := fun hsame => hnotMem (hsame ▸ hmem)
    rw [Function.update_of_ne (hne _ (hfs g hg)), Function.update_of_ne hgf]
    exact h.mine g (List.mem_cons_of_mem f hg)
  · intro t ht hmem
    rw [Function.update_of_ne (hne t ht)]
    by_cases hsame : t = f.tmp
    · rw [hsame, Function.update_self]
    · rw [Function.update_of_ne hsame]
      refine h.gone t ht fun hcons => ?_
      exact (List.mem_cons.mp hcons).elim hsame hmem

theorem throughout_renameFiles {fs done : List File} (paths : List Path)
    (hfiles : files = done ++ fs) (hsep : ∀ f ∈ files, f.path ∉ temps files)
    (hfree : ∀ t ∈ temps files, d t = none) (h : Renaming d files done fs e) :
    (renameFiles fs paths).Throughout (fileSystem tidy frank) (Sound frank d files)
      (fun r e' => (r = .ok () → ∀ q, q ∉ temps files → e' q = replaced d files q) ∧
        Left tidy d files r e') e := by
  induction fs generalizing done e paths with
  | nil =>
      rw [List.append_nil] at hfiles
      refine ⟨h.sound (by rw [hfiles, List.append_nil]) hfree, fun _ => ?_,
        fun _ => of_ok_eq_error⟩
      rw [hfiles]
      have hbase := h.base
      rwa [hfiles] at hbase
  | cons f fs ih =>
      have hmem : f ∈ files := hfiles ▸ List.mem_append_right _ List.mem_cons_self
      have hrest : ∀ t ∈ temps (f :: fs), t ∈ temps files := by
        intro t ht
        rw [hfiles, temps, List.map_append]
        exact List.mem_append_right _ ht
      have hf : f.tmp ∈ temps files := hrest _ List.mem_cons_self
      have hstop : ∀ e₁ k, Sound frank d files e₁ →
          (∀ t ∈ temps files, t ∉ temps (f :: fs) → e₁ t = none) →
          (do
            removeAll ((f :: fs).map File.tmp)
            return .error (cannotReplace f.path (sysError k) paths) :
              FileTalk (Except IoError Unit)).Throughout (fileSystem tidy frank) (Sound frank d files)
            (fun r e' => (r = .ok () → ∀ q, q ∉ temps files → e' q = replaced d files q) ∧
              Left tidy d files r e') e₁ := by
        intro e₁ k hsound hgone
        refine Throughout.bind ((throughout_removeAll hrest
          (fun _ t ht => hfree t (hrest t ht)) hsound).mono ?_)
        rintro - e₂ hsound₂ ⟨honly, hremoved⟩
        refine ⟨hsound₂, of_error_eq_ok, ?_⟩
        rintro _ - htidy t ht -
        by_cases hin : t ∈ temps (f :: fs)
        · exact hremoved htidy t hin
        · rw [honly t hin]
          exact hgone t ht hin
      have hsound : Sound frank d files e := h.sound hfiles hfree
      refine Throughout.bind (Throughout.query hsound ?_)
      rintro a e₁ ⟨hstep, -⟩
      cases hstep with
      | @renamed p q content a hcontent =>
          obtain rfl : f.contents = content :=
            Option.some.inj ((h.mine f List.mem_cons_self).symm.trans hcontent)
          have hnext := h.rename (hsep f hmem) hf
            fun g hg => hrest _ (List.mem_map_of_mem (List.mem_cons_of_mem f hg))
          have hfiles' : files = done ++ [f] ++ fs := by
            rw [hfiles, List.append_assoc, List.singleton_append]
          have hsound' : Sound frank d files
              (Function.update (Function.update e f.tmp none) f.path (some f.contents)) :=
            hnext.sound hfiles' hfree
          refine ⟨hsound', ?_⟩
          rcases a with k | ⟨⟩
          · refine hstop _ k hsound' fun t ht hnot => hnext.gone t ht fun hin => ?_
            exact hnot (List.mem_cons_of_mem _ hin)
          · exact ih (paths ++ [f.path]) hfiles' hnext
      | notRenamed k => exact ⟨hsound, hstop e k hsound h.gone⟩

/-- What all of `replace` keeps and leaves. -/
theorem throughout_replace (tidy frank : Prop) (d : Disk Path) {files : List File}
    (hsep : ∀ f ∈ files, f.path ∉ temps files) :
    (replace files).Throughout (fileSystem tidy frank) (Sound frank d files)
      (fun r e' => (r = .ok () → ∀ q, q ∉ temps files → e' q = replaced d files q) ∧
        Left tidy d files r e') d := by
  have hstart : Staged d files [] d :=
    ⟨fun _ _ => rfl, List.forall_mem_nil _, List.nodup_nil, fun _ _ _ => rfl⟩
  refine Throughout.bind ((throughout_writeFiles (List.nil_append files).symm hstart).mono ?_)
  rintro (err | ⟨⟩) e hsound ⟨hok, hleft⟩
  · exact ⟨hsound, of_error_eq_ok, hleft⟩
  · have hstaged := hok rfl
    refine throughout_renameFiles [] (List.nil_append files).symm hsep
      (fun t ht => hstaged.free ht) ?_
    exact ⟨hstaged.base, fun f hf => (hstaged.mine f hf).1, hstaged.nodup,
      fun t ht hnot => absurd ht hnot⟩

theorem replaced_target (d : Disk Path) (files : List File) (q : Path) :
    replaced d files q = d q ∨
      ∃ f ∈ files, f.path = q ∧ replaced d files q = some f.contents := by
  induction files using List.reverseRecOn with
  | nil => exact .inl rfl
  | append_singleton done f ih =>
      rw [replaced_concat]
      by_cases hsame : q = f.path
      · refine .inr ⟨f, List.mem_append_right _ (List.mem_singleton_self f), hsame.symm, ?_⟩
        rw [hsame, Function.update_self]
      · rw [Function.update_of_ne hsame]
        refine ih.imp_right ?_
        rintro ⟨g, hg, hpath, hvalue⟩
        exact ⟨g, List.mem_append_left _ hg, hpath, hvalue⟩

/-- What `replace` promises. Wherever it fails or is cut off, a prefix of the files holds the new
contents and all else, temporary files apart, is as it was; a reported success has replaced them
all. Where creations fail only for a file that is there, the temporary files of others are never
touched. Where removals do not fail, a reported error leaves no temporary file of its own. -/
def Replaces (d : Disk Path) (files : List File) : Prop :=
  (∀ e, Cut (fileSystem False False) d (replace files) e →
    (∃ k, k ≤ files.length ∧ ∀ q, q ∉ temps files → e q = replaced d (files.take k) q) ∧
    ∀ f ∈ files, e f.path = d f.path ∨
      ∃ g ∈ files, g.path = f.path ∧ e f.path = some g.contents) ∧
  (∀ log e, Runs (fileSystem False False) d (replace files) log (.ok ()) e →
    ∀ q, q ∉ temps files → e q = replaced d files q) ∧
  (∀ e, Cut (fileSystem False True) d (replace files) e →
    ∀ t ∈ temps files, d t ≠ none → e t = d t) ∧
  ∀ log err e, Runs (fileSystem True False) d (replace files) log (.error err) e →
    ∀ t ∈ temps files, d t = none → e t = none

/-- **Files replaced together.** The promise holds of every list of files none of which is the
temporary file of another, in every run and at every point where one may be cut off, on any disk to
begin with. -/
theorem replace_exact (d : Disk Path) {files : List File}
    (hsep : ∀ f ∈ files, f.path ∉ temps files) : Replaces d files := by
  refine ⟨?_, ?_, ?_, ?_⟩
  · intro e hcut
    obtain ⟨⟨k, hk, hupto⟩, -⟩ := (throughout_replace False False d hsep).cut hcut
    refine ⟨⟨k, hk, hupto⟩, fun f hf => ?_⟩
    rw [hupto _ (hsep f hf)]
    refine (replaced_target d (files.take k) f.path).imp_right ?_
    rintro ⟨g, hg, hpath, hvalue⟩
    exact ⟨g, List.mem_of_mem_take hg, hpath, hvalue⟩
  · intro log e hrun
    exact ((throughout_replace False False d hsep).runs hrun).1 rfl
  · intro e hcut
    exact ((throughout_replace False True d hsep).cut hcut).2 trivial
  · intro log err e hrun
    exact ((throughout_replace True False d hsep).runs hrun).2 err rfl trivial

def publicFile : File := ⟨"k.pub.asc".toList, [1], false⟩

def secretFile : File := ⟨"k.asc".toList, [2], true⟩

theorem replace_exact_sample : Replaces (fun _ => none) [publicFile, secretFile] :=
  replace_exact _ (by decide)

/-- A stale temporary file beside the second of two files. -/
def staleDisk : Disk Path := Function.update (fun _ => none) secretFile.tmp (some [9])

/-- A temporary file whose removal fails stays; a target that is the temporary file of another
holds other contents meanwhile; and where a creation fails for want of something else, the
temporary file of another run is removed. -/
theorem replace_not_exact :
    (∃ log err e, Runs (fileSystem False False) staleDisk (replace [publicFile, secretFile]) log
      (.error err) e ∧ staleDisk publicFile.tmp = none ∧ e publicFile.tmp = some [1]) ∧
    (∃ e, Cut (fileSystem False False) (fun _ => none)
      (replace [publicFile, ⟨publicFile.tmp, [2], true⟩]) e ∧ e publicFile.tmp = some [1]) ∧
    ∃ log err e, Runs (fileSystem False False) staleDisk (replace [secretFile]) log (.error err) e ∧
      staleDisk secretFile.tmp = some [9] ∧ e secretFile.tmp = none := by
  refine ⟨?removal, ?target, ?creation⟩
  case removal =>
    apply Exists.intro
    apply Exists.intro
    apply Exists.intro
    apply And.intro
    · apply Runs.asked rfl ⟨.created rfl, False.elim, False.elim⟩
      apply Runs.asked rfl ⟨.wrote rfl, False.elim, False.elim⟩
      apply Runs.asked rfl ⟨.flushed (.ok ()) nofun, False.elim, False.elim⟩
      apply Runs.asked rfl ⟨.synced (.ok ()) nofun, False.elim, False.elim⟩
      apply Runs.asked rfl ⟨.taken (by decide), False.elim, False.elim⟩
      apply Runs.asked rfl ⟨.notRemoved, False.elim, False.elim⟩
      exact .done
    · exact ⟨rfl, rfl⟩
  case target =>
    apply Exists.intro
    apply And.intro
    · apply Cut.asked rfl ⟨.created rfl, False.elim, False.elim⟩
      apply Cut.asked rfl ⟨.wrote rfl, False.elim, False.elim⟩
      exact .here
    · rfl
  case creation =>
    apply Exists.intro
    apply Exists.intro
    apply Exists.intro
    apply And.intro
    · apply Runs.asked rfl ⟨.notCreated, False.elim, False.elim⟩
      apply Runs.asked rfl ⟨.removed (.ok ()) (.inl rfl), False.elim, False.elim⟩
      exact .done
    · exact ⟨rfl, rfl⟩

end Keyroost.PgpKey
