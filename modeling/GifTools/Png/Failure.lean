/-!
# Failures

How the functions of `stb_image`, `stb_image_write` and `stb_image_resize` can fail. They report
some of their failures; what else goes wrong in them is undefined behaviour, which has a name here.
-/

namespace GifTools

/-- Why a function gives up. -/
inductive StbiFailure where
  /-- `stbi__err`, with its reason. -/
  | err (reason : String)
  /-- Without a reason. -/
  | refused
  /-- A byte of the output is read that nothing has been written to. -/
  | uninitialised
  /-- An assertion does not hold. -/
  | assertion
  /-- Bytes are written behind a null pointer. -/
  | nullPointer
  /-- Bytes are written behind the end of what has been allocated. -/
  | overrun
  /-- A number is too large for an `int`. -/
  | overflow
  /-- A loop has not come to its end. -/
  | running
  deriving DecidableEq

/-- The failures that are reported; nothing can be said of what happens after another one. -/
def StbiFailure.reported : StbiFailure → Bool
  | .err _ | .refused => true
  | _ => false

end GifTools
