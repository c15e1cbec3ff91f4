import Mathlib.Data.Fin.Tuple.Basic
import InterceptingProxy.KeyLog
import InterceptingProxy.Proofs.Encoding.RoundTrips
import InterceptingProxy.Proofs.FileTree
import InterceptingProxy.Proofs.Text.Cutting
import InterceptingProxy.Proofs.Text.Utf8

set_option autoImplicit false

/-! # Reading a key log back

A file may be opened as a key log any number of times, and each handle may write to it in turn
(`Calls`). Every line ends up behind the ones before it, whichever handle wrote it (`run_of_find`).
What has been added to the file then reads back as the secrets that were written
(`secretsIn?_flatMap_line`): the separators stand neither in a label nor among hexadecimal
digits. -/

namespace InterceptingProxy

/-! ## Lines -/

namespace Secret

/-- The line of a secret without its end. -/
def text (s : Secret) : Text :=
  s.label ++ ' ' :: Hex.encode s.clientRandom ++ ' ' :: Hex.encode s.secret

/-- The secret that stands in a line: a label and two byte strings in hexadecimal. -/
def ofText? (line : Text) : Option Secret :=
  match splitOn ' ' line with
  | [label, clientRandom, secret] => do
    return { label, clientRandom := ← Hex.decode? clientRandom, secret := ← Hex.decode? secret }
  | _ => none

/-- The label has nothing in it that would be taken for a separator. -/
def Legible (s : Secret) : Prop := ' ' ∉ s.label ∧ '\n' ∉ s.label

instance (s : Secret) : Decidable s.Legible := inferInstanceAs (Decidable (_ ∧ _))

theorem splitOn_text {s : Secret} (h : s.Legible) :
    splitOn ' ' s.text = [s.label, Hex.encode s.clientRandom, Hex.encode s.secret] := by
  have hblank : ∀ bytes, ' ' ∉ Hex.encode bytes := Hex.not_mem_encode rfl
  rw [text, List.append_assoc, List.cons_append, splitOn_eq, List.splitOn_append_cons_self,
    List.splitOn_append_cons_self, List.splitOn_eq_singleton h.1,
    List.splitOn_eq_singleton (hblank _), List.splitOn_eq_singleton (hblank _)]
  rfl

theorem ofText?_text {s : Secret} (h : s.Legible) : ofText? s.text = some s := by
  rw [ofText?, splitOn_text h]
  simp only [Hex.decode?_encode, bind, Option.bind, pure]

theorem newline_not_mem_text {s : Secret} (h : s.Legible) : '\n' ∉ s.text := by
  have hfeed : ∀ bytes, '\n' ∉ Hex.encode bytes := Hex.not_mem_encode rfl
  simp [text, h.2, hfeed]

end Secret

namespace KeyLog

/-- The secrets in the lines of a log, each line with a line feed at its end. -/
def secretsIn? (bytes : Bytes) : Option (List Secret) := do
  let lines := splitOn '\n' (← Utf8.decode? bytes)
  if lines.getLast? = some [] then lines.dropLast.mapM Secret.ofText? else none

theorem flatMap_line (secrets : List Secret) :
    secrets.flatMap Secret.line = Text.utf8 ((secrets.map Secret.text).flatMap (· ++ ['\n'])) := by
  rw [Text.utf8, List.flatMap_assoc, List.flatMap_map]
  rfl

theorem mapM_ofText? {secrets : List Secret} (h : ∀ s ∈ secrets, s.Legible) :
    (secrets.map Secret.text).mapM Secret.ofText? = some secrets := by
  induction secrets with
  | nil => rfl
  | cons s rest ih =>
      obtain ⟨hs, hrest⟩ := List.forall_mem_cons.1 h
      rw [List.map_cons, List.mapM_cons, Secret.ofText?_text hs, ih hrest]
      rfl

theorem secretsIn?_flatMap_line {secrets : List Secret} (h : ∀ s ∈ secrets, s.Legible) :
    secretsIn? (secrets.flatMap Secret.line) = some secrets := by
  have hlines : ∀ line ∈ secrets.map Secret.text, '\n' ∉ line :=
    List.forall_mem_map.2 fun s hs => Secret.newline_not_mem_text (h s hs)
  rw [secretsIn?, Utf8.decode?_eq_some_iff.2 (flatMap_line secrets)]
  simp only [bind, Option.bind, splitOn_flatMap_concat hlines, List.getLast?_concat,
    List.dropLast_concat, if_true, mapM_ofText? h]

/-! ## Calls -/

/-- A sequence of calls on one path, by the number of handles that are open before it. The newest
    handle is counted first. -/
inductive Calls : Nat → Type where
  | done {n : Nat} : Calls n
  | opening {n : Nat} (rest : Calls (n + 1)) : Calls n
  | logging {n : Nat} (handle : Fin n) (s : Secret) (rest : Calls n) : Calls n

namespace Calls

/-- The secrets written, in the order of the calls. -/
def secrets {n : Nat} : Calls n → List Secret
  | .done => []
  | .opening rest => rest.secrets
  | .logging _ s rest => s :: rest.secrets

/-- The files after the calls, made with the handles that are open. -/
def run (path : Text) {n : Nat} (opened : Fin n → KeyLog) (files : FileTree) :
    Calls n → Except ProxyError FileTree
  | .done => .ok files
  | .opening rest => do
    let (k, files) ← openFile files path
    rest.run path (Fin.cons k opened) files
  | .logging handle s rest => rest.run path opened ((opened handle).log files s)

end Calls

variable {files next : FileTree} {path : Text} {names : List Text} {content : Bytes} {n : Nat}

theorem find_of_openFile {k : KeyLog} (h : openFile files path = .ok (k, next)) :
    next.find path = .ok (k.names, .file (files.contentAt path)) := by
  rw [openFile] at h
  split at h
  · next hopen =>
      cases h
      exact FileTree.find_of_openAppend hopen
  · cases h

/-- A file that is there is opened as it is. -/
theorem openFile_of_find (h : files.find path = .ok (names, .file content)) :
    openFile files path = .ok (⟨names⟩, files) := by
  rw [openFile, FileTree.openAppend_of_find h]

theorem find_log {k : KeyLog} (h : files.find path = .ok (k.names, .file content)) (s : Secret) :
    (k.log files s).find path = .ok (k.names, .file (content ++ s.line)) :=
  FileTree.find_append h s.line

/-- The handles stay those of the file that the path leads to, and each line goes to its end. -/
theorem run_of_find (calls : Calls n) {opened : Fin n → KeyLog}
    (hopened : ∀ i, (opened i).names = names)
    (h : files.find path = .ok (names, .file content)) :
    ∃ final, calls.run path opened files = .ok final ∧
      final.find path = .ok (names, .file (content ++ calls.secrets.flatMap Secret.line)) := by
  induction calls generalizing files content with
  | done => exact ⟨files, rfl, by simpa [Calls.secrets] using h⟩
  | opening rest ih =>
      have hmore : ∀ i, ((Fin.cons ⟨names⟩ opened : Fin (_ + 1) → KeyLog) i).names = names :=
        Fin.cases rfl hopened
      obtain ⟨final, hrun, hfinal⟩ := ih hmore h
      refine ⟨final, ?_, hfinal⟩
      rw [Calls.run, openFile_of_find h]
      exact hrun
  | logging handle s rest ih =>
      have hlog := find_log (k := opened handle) (by rwa [hopened]) s
      rw [hopened] at hlog
      obtain ⟨final, hrun, hfinal⟩ := ih hopened hlog
      refine ⟨final, hrun, ?_⟩
      rw [hfinal, Calls.secrets, List.flatMap_cons, List.append_assoc]

/-- The first call can only open the file, which is there from then on. -/
theorem run_of_opens (calls : Calls 0) (hopens : ∃ opened, openFile files path = .ok opened) :
    ∃ final, calls.run path Fin.elim0 files = .ok final ∧
      final.contentAt path = files.contentAt path ++ calls.secrets.flatMap Secret.line := by
  cases calls with
  | done => exact ⟨files, rfl, by simp [Calls.secrets]⟩
  | logging handle => exact handle.elim0
  | opening rest =>
      obtain ⟨⟨k, next⟩, hopen⟩ := hopens
      have hopened : ∀ i, ((Fin.cons k Fin.elim0 : Fin 1 → KeyLog) i).names = k.names :=
        Fin.cases rfl (·.elim0)
      obtain ⟨final, hrun, hfinal⟩ := run_of_find rest hopened (find_of_openFile hopen)
      refine ⟨final, ?_, FileTree.contentAt_of_find hfinal⟩
      rw [Calls.run, hopen]
      exact hrun

end KeyLog

/-- Where the file can be opened at all, every sequence of calls goes through, and the file holds
    what it held before and a line for each secret, which read back as those secrets. -/
theorem key_log_reads_back (files : FileTree) (path : Text) (calls : KeyLog.Calls 0)
    (hopens : ∃ opened, KeyLog.openFile files path = .ok opened) :
    ∃ final, calls.run path Fin.elim0 files = .ok final ∧
      final.contentAt path =
        files.contentAt path ++ calls.secrets.flatMap Secret.line ∧
      ((∀ s ∈ calls.secrets, s.Legible) →
        KeyLog.secretsIn? ((final.contentAt path).drop (files.contentAt path).length) =
          some calls.secrets) := by
  obtain ⟨final, hrun, hcontent⟩ := KeyLog.run_of_opens calls hopens
  refine ⟨final, hrun, hcontent, fun hlegible => ?_⟩
  rw [hcontent, List.drop_left, KeyLog.secretsIn?_flatMap_line hlegible]

/-- A log that is there already is opened twice, and the handles write in turn. -/
def KeyLog.inTurn : KeyLog.Calls 0 :=
  .opening (.logging 0 ⟨"CLIENT_RANDOM".toList, [0xC0, 0xFF], []⟩
    (.opening (.logging 0 ⟨"EXPORTER_SECRET".toList, [], [0x0A]⟩
      (.logging 1 ⟨"CLIENT_RANDOM".toList, [0x20], [0x0D, 0x0A]⟩ .done))))

/-- The directory with that log in it. -/
def KeyLog.before : FileTree :=
  ⟨"/var".toList, [(["var".toList, "log".toList], .file (ascii "old\n"))]⟩

theorem key_log_reads_back_from_two_handles :
    (∃ opened, KeyLog.openFile KeyLog.before "log".toList = .ok opened) ∧
      ∃ final, KeyLog.inTurn.run "log".toList Fin.elim0 KeyLog.before = .ok final ∧
        final.contentAt "log".toList =
          ascii "old\nCLIENT_RANDOM c0ff \nEXPORTER_SECRET  0a\nCLIENT_RANDOM 20 0d0a\n" ∧
        KeyLog.secretsIn? ((final.contentAt "log".toList).drop 4) = some KeyLog.inTurn.secrets := by
  have hopens : ∃ opened, KeyLog.openFile KeyLog.before "log".toList = .ok opened := ⟨_, rfl⟩
  obtain ⟨final, hrun, hcontent, hread⟩ :=
    key_log_reads_back KeyLog.before "log".toList KeyLog.inTurn hopens
  exact ⟨hopens, final, hrun, hcontent, hread (by decide)⟩

end InterceptingProxy
