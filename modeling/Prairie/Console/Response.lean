/-
  Prairie.Console.Response
  ────────────────────────
  **RESPONSES.**

  Whatever the console does shows as bytes on the output, text on the error
  channel and an exit code.  Responses are joined in order of time.
-/

namespace Prairie

/-- What the console shows. -/
structure Response where
  /-- The exit code: 0 for success. -/
  code : Nat := 0
  output : ByteArray := .empty
  errors : String := ""

namespace Response

/-- A response that only writes a text to the output. -/
def say (text : String) : Response := { output := text.toUTF8 }

/-- A response that only writes a text to the error channel. -/
def complain (text : String) (code : Nat) : Response := { code, errors := text }

/-- What `first` shows and then what `second` shows; the exit code is that of
`second`. -/
def andThen (first second : Response) : Response where
  code := second.code
  output := first.output ++ second.output
  errors := first.errors ++ second.errors

end Response

end Prairie
