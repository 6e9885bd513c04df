import WordCycle.Proofs.Editor.Path
import WordCycle.Proofs.File.Tree
import WordCycle.Proofs.Text.LineEnds

/-! Opening a file and saving it again. The document is the text of the file with its line ends written as
one character, and the bytes of that text are what is saved, so the file stays as it is exactly if no
carriage return is in it. -/

namespace WordCycle
set_option autoImplicit false

theorem DocumentBuffer.text_showText (b : DocumentBuffer) (t : Text) :
    (b.showText t).widget.text = t := by
  have hunits : (b.showText t).widget.units = Units16.encode t := Widget.replaceUnits_units _ _
  rw [Widget.text, hunits, Units16.decode_encode]

namespace Editor

theorem document_showFile (e : Editor) (path : Path) (t : Text) :
    (e.showFile path t).document = t := by
  have htext := e.buffer.text_showText t
  unfold showFile
  dsimp only
  split
  · exact htext
  · exact htext

theorem files_showFile (e : Editor) (path : Path) (t : Text) :
    (e.showFile path t).files = e.files := by
  unfold showFile
  dsimp only
  split <;> rfl

theorem openFile_of_read {e : Editor} {path : Path} {t : Text}
    (h : e.files.read path = .ok (Utf8.encode t)) :
    e.openFile path = (.ok true, e.showFile path t.unifyLineEnds) := by
  rw [openFile, h]
  simp only [(Utf8.decode_eq_ok_iff _ _).mpr rfl]

theorem saveFile_of_writable {e : Editor} {path : Path} {content : Bytes} (hpath : e.path = some path)
    (hwritable : (e.files.write path content).1 = .ok ()) :
    ∃ loc, e.files.locate path = .ok loc ∧ e.saveFile.1 = .ok true ∧
      e.files.write path (Utf8.encode e.document) = (.ok (), e.saveFile.2.files) ∧
      e.saveFile.2.files = e.files.put loc (.file (Utf8.encode e.document)) := by
  obtain ⟨loc, hlocate, hwrite⟩ := FileTree.write_of_writable hwritable (Utf8.encode e.document)
  have hsave : e.saveFile = e.writeFile path := by rw [saveFile, hpath]
  rw [document] at hwrite ⊢
  rw [hsave, writeFile, hwrite]
  exact ⟨loc, hlocate, rfl, rfl, rfl⟩

/-- A file of UTF-8 that is opened, and saved when nothing has touched it or the document in between, has
each of its line ends written as a line feed, and all else as it was. So its bytes are what they were
exactly if there is no carriage return among them. No other file changes. -/
theorem saved_as_opened {e e' : Editor} {path : Path} {content : Bytes} {t : Text}
    {events : List Event} (hread : e.files.read path = .ok content)
    (hwritable : (e.files.write path content).1 = .ok ()) (htext : content = Utf8.encode t)
    (huntouched : (e.openFile path).2.anyTouches events = false)
    (he' : (e.openFile path).2.after events = e') :
    (e.openFile path).1 = .ok true ∧ e'.saveFile.1 = .ok true ∧
      e'.saveFile.2.files.read path = .ok (Bytes.unifyLineEnds content) ∧
      (e'.saveFile.2.files.read path = .ok content ↔ 0x0d ∉ content) ∧
      ∃ loc, e.files.locate path = .ok loc ∧
        ∀ other, other ≠ loc → e'.saveFile.2.files.entry? other = e.files.entry? other := by
  subst htext he'
  have hopen := openFile_of_read hread
  have hstays := stays_after huntouched
  rw [hopen] at hstays ⊢
  have hfiles := (hstays.files (by decide)).trans (files_showFile e path _)
  have hdocument := (hstays.document (by decide)).trans (document_showFile e path _)
  have hpath := (hstays.path (by decide)).trans (path_showFile e path _)
  rw [← hfiles] at hwritable
  obtain ⟨loc, hlocate, hsaved, hwrite, hput⟩ := saveFile_of_writable hpath hwritable
  have hbytes := FileTree.read_of_write hwrite
  rw [hdocument, ← Utf8.unifyLineEnds_encode] at hbytes
  refine ⟨rfl, hsaved, hbytes, ?_, loc, hfiles ▸ hlocate, ?_⟩
  · rw [hbytes, Except.ok.injEq, Bytes.unifyLineEnds_eq_self_iff]
  · intro other hother
    rw [hput, FileTree.entry?_put_of_ne _ hother, hfiles]

/-- With a byte order mark and a character of four bytes; in between a file is asked for in vain, the
document is selected and the settings are shown. -/
theorem saved_as_opened_marked :
    ∃ e e' path content t events, e = plain (({} : FileTree).put (freshHome ++ ["a.txt".toList])
        (.file content)) ∧ path = ⟨[], ["a.txt".toList]⟩ ∧
      content = [0xef, 0xbb, 0xbf, 0xf0, 0x9f, 0x98, 0x80, 0x0a] ∧ content = Utf8.encode t ∧
      events = [.request (.menu "&Open...".toList), .request (.openFile ⟨[], ["b.txt".toList]⟩),
        .request (.select 0 2), .request .configure] ∧
      e.files.read path = .ok content ∧ (e.files.write path content).1 = .ok () ∧
      (e.openFile path).2.anyTouches events = false ∧ (e.openFile path).2.after events = e' ∧
      (e.openFile path).1 = .ok true ∧ e'.saveFile.1 = .ok true ∧
      e'.saveFile.2.files.read path = .ok content := by
  let path : Path := ⟨[], ["a.txt".toList]⟩
  let content : Bytes := [0xef, 0xbb, 0xbf, 0xf0, 0x9f, 0x98, 0x80, 0x0a]
  let t : Text := "\ufeff😀\n".toList
  let e : Editor := plain (({} : FileTree).put (freshHome ++ ["a.txt".toList]) (.file content))
  let events : List Event := [.request (.menu "&Open...".toList),
    .request (.openFile ⟨[], ["b.txt".toList]⟩), .request (.select 0 2), .request .configure]
  have hread : e.files.read path = .ok content := by decide +kernel
  have hwritable : (e.files.write path content).1 = .ok () := by decide +kernel
  have htext : content = Utf8.encode t := by decide +kernel
  have huntouched : (e.openFile path).2.anyTouches events = false := by decide +kernel
  obtain ⟨hopened, hsaved, -, hsame, -⟩ := saved_as_opened hread hwritable htext huntouched rfl
  exact ⟨e, _, path, content, t, events, rfl, rfl, rfl, htext, rfl, hread, hwritable, huntouched, rfl,
    hopened, hsaved, hsame.mpr (by decide)⟩

/-- A carriage return before a line feed is lost. -/
theorem not_saved_as_opened :
    ∃ (e : Editor) (path : Path) (content : Bytes), content = Utf8.encode "x\r\ny".toList ∧
      e.files.read path = .ok content ∧ (e.openFile path).1 = .ok true ∧
      (e.openFile path).2.saveFile.1 = .ok true ∧
      (e.openFile path).2.saveFile.2.files.read path = .ok (Utf8.encode "x\ny".toList) ∧
      (e.openFile path).2.saveFile.2.files.read path ≠ .ok content := by
  refine ⟨plain (({} : FileTree).put (freshHome ++ ["a.txt".toList])
    (.file (Utf8.encode "x\r\ny".toList))), ⟨[], ["a.txt".toList]⟩, _, rfl, ?_⟩
  decide +kernel

end Editor
end WordCycle
