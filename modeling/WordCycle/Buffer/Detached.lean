import WordCycle.Buffer.Basic

/-! A buffer without a document. It knows its word characters and takes part in groups, which have
nothing to undo; whatever needs a text or a caret is refused. -/

namespace WordCycle
set_option autoImplicit false

structure DetachedBuffer where
  extra : Text := []

namespace DetachedBuffer

mutual

/-- Answers one request. A search for nothing finds nothing before it asks for the text. -/
def run (b : DetachedBuffer) : BufferCommand → Except EditError BufferAnswer
  | .beginGroup => .ok .nothing
  | .endGroup => .ok .nothing
  | .dismissPopup => .ok .nothing
  | .isWordChar s => .ok (.flag (isWordText b.extra s))
  | .find pattern _ _ => if pattern.isEmpty then .ok (.found none) else .error .notProvided
  | .group inner => (runAll b inner).map .each
  | .fail message => .error (.raised message)
  | .insert _ => .error .notProvided
  | .replace _ _ _ => .error .notProvided
  | .setCursor _ => .error .notProvided
  | .cursor => .error .notProvided
  | .text => .error .notProvided
  | .undo => .error .notProvided
  | .wordStart _ => .error .notProvided
  | .wordEnd _ => .error .notProvided
  | .length => .error .notProvided
  | .range _ _ => .error .notProvided
  | .setPopup _ => .error .notProvided

/-- Answers requests up to the first that is refused. -/
def runAll (b : DetachedBuffer) : List BufferCommand → Except EditError (List BufferAnswer)
  | [] => .ok []
  | c :: rest => do
    let answer ← run b c
    return answer :: (← runAll b rest)

end

end DetachedBuffer
end WordCycle
