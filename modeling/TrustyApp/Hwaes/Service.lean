import TrustyApp.Library.Bytes
import TrustyApp.Library.Evp
import TrustyApp.Library.Reactive

/-!
# The HWAES service

`hwaes_aes_op` of `hwaes/main.c`.  All operations share the static `cipher_ctx`.  The
EVP calls and the client library of the HWKEY service are parameters.
-/

namespace TrustyApp.Hwaes

open Reactive

structure Interface where
  /-- `AES_KEY_MAX_SIZE` -/
  aesKeyMaxSize : Nat
  /-- `HWKEY_OPAQUE_HANDLE_MAX_SIZE` -/
  opaqueHandleMaxSize : Nat

inductive Code
  | noError
  | errGeneric
  | errInvalidArgs
  | errIo
  | errNotImplemented
  deriving DecidableEq

inductive Halt
  | assertFailed
  | outOfBounds
  deriving DecidableEq

/-- `struct hwaes_arg_in` and `struct hwaes_arg_out`: a length and a pointer to as many
bytes, or a null pointer. -/
inductive Arg
  | null (len : Nat)
  | pointer (data : List UInt8)
  deriving DecidableEq

def Arg.len : Arg → Nat
  | .null len => len
  | .pointer data => data.length

def Arg.dataPtr : Arg → Option (List UInt8)
  | .null _ => none
  | .pointer data => some data

def Arg.bytes (arg : Arg) : List UInt8 := arg.dataPtr.getD []

def Arg.write (arg : Arg) (data : List UInt8) : Except Halt Arg :=
  match arg with
  | .null _ => if data = [] then .ok arg else .error .outOfBounds
  | .pointer buf =>
      if data.length ≤ buf.length then .ok (.pointer (Bytes.overwrite buf data))
      else .error .outOfBounds

/-- The modes of the interface; `other` stands for the remaining values. -/
inductive Mode
  | cbc
  | gcm
  | other
  deriving DecidableEq

inductive Padding
  | noPadding
  | other
  deriving DecidableEq

inductive KeyType
  | opaqueHandle
  | other
  deriving DecidableEq

/-- `struct hwaes_aes_op_args` -/
structure Args where
  padding : Padding
  keyType : KeyType
  mode : Mode
  encrypt : Bool
  key : Arg
  iv : Arg
  textIn : Arg
  textOut : Arg
  aad : Arg
  tagIn : Arg
  tagOut : Arg

/-- The HWKEY client library: whether a session can be opened, and the key it gets for
an id into a buffer of some size, if it does. -/
structure HwkeyClient where
  hwkeyOpen : Bool
  hwkeyGetKeyslotData : (slotId : List UInt8) → (room : Nat) → Option (List UInt8)

def hwaesCheckArgHelper (len : Nat) (dataPtr : Option (List UInt8)) : Code :=
  if len = 0 ∨ dataPtr = none then .errInvalidArgs else .noError

def hwaesCheckArgIn (arg : Arg) : Code := hwaesCheckArgHelper arg.len arg.dataPtr

def hwaesCheckArgOut (arg : Arg) : Code := hwaesCheckArgHelper arg.len arg.dataPtr

def checkArgs (args : Args) : Code :=
  if args.padding ≠ .noPadding then .errNotImplemented
  else if hwaesCheckArgIn args.key ≠ .noError then hwaesCheckArgIn args.key
  else if hwaesCheckArgIn args.textIn ≠ .noError then hwaesCheckArgIn args.textIn
  else if hwaesCheckArgOut args.textOut ≠ .noError then hwaesCheckArgOut args.textOut
  else if args.textIn.len ≠ args.textOut.len then .errInvalidArgs
  else .noError

def fetchKey (ifc : Interface) (client : HwkeyClient) (args : Args) : Except Code (List UInt8) :=
  if args.keyType = .opaqueHandle then
    if args.key.len > ifc.opaqueHandleMaxSize then .error .errInvalidArgs
    else if args.key.bytes[args.key.len - 1]? ≠ some 0 then .error .errInvalidArgs
    else if ¬ client.hwkeyOpen then .error .errGeneric
    else
      match client.hwkeyGetKeyslotData (Bytes.cstr args.key.bytes) ifc.aesKeyMaxSize with
      | none => .error .errIo
      | some key => .ok key
  else .ok args.key.bytes

def cipherFor (mode : Evp.Mode) (keyLen : Nat) : Except Code Evp.Cipher :=
  if keyLen = 16 then .ok (.aes128 mode)
  else if keyLen = 32 then .ok (.aes256 mode)
  else .error .errInvalidArgs

def selectCipher (args : Args) (keyLen : Nat) : Except Code Evp.Cipher :=
  match args.mode with
  | .cbc => do
      let cipher ← cipherFor .cbc keyLen
      if hwaesCheckArgIn args.aad = .noError then .error .errInvalidArgs
      else if hwaesCheckArgIn args.tagIn = .noError ∨ hwaesCheckArgOut args.tagOut = .noError then
        .error .errInvalidArgs
      else .ok cipher
  | .gcm => do
      let cipher ← cipherFor .gcm keyLen
      if args.encrypt then
        if hwaesCheckArgIn args.tagIn = .noError then .error .errInvalidArgs
        else if hwaesCheckArgOut args.tagOut ≠ .noError then .error .errInvalidArgs
        else .ok cipher
      else if hwaesCheckArgIn args.tagIn ≠ .noError then .error .errInvalidArgs
      else if hwaesCheckArgOut args.tagOut = .noError then .error .errInvalidArgs
      else .ok cipher
  | .other => .error .errNotImplemented

/-- A `size_t` passed as an `int`. -/
def toInt (len : Nat) : Int := (BitVec.ofNat 32 len).toInt

variable (evp : Evp.Library)

/-- What an operation leaves: its return code, the context and the output buffers. -/
structure Op where
  rc : Code
  ctx : evp.Ctx
  textOut : Arg
  tagOut : Arg

variable {evp}

def proceed (called : evp.Ctx × Bool) : Except (Code × evp.Ctx) evp.Ctx :=
  if called.2 then .ok called.1 else .error (.errGeneric, called.1)

/-- Set up the context, up to the authentication tag of the input. -/
def configure (ctx : evp.Ctx) (args : Args) (cipher : Evp.Cipher) (key : List UInt8) :
    Except (Code × evp.Ctx) evp.Ctx := do
  let ctx ← proceed (evp.cipherInit (evp.reset ctx) cipher args.encrypt)
  if args.textIn.len % evp.blockSize ctx ≠ 0 then .error (.errInvalidArgs, ctx)
  else if evp.ivLength ctx ≠ args.iv.len then .error (.errInvalidArgs, ctx)
  else do
    let ctx ← proceed (evp.cipherInitKey ctx cipher key args.iv.dataPtr args.encrypt)
    let ctx ← proceed (evp.setPadding ctx false)
    let ctx ←
      if hwaesCheckArgIn args.aad = .noError then
        proceed (evp.updateAad ctx args.aad.bytes (toInt args.aad.len))
      else .ok ctx
    if hwaesCheckArgIn args.tagIn = .noError then
      proceed (evp.setTag ctx args.tagIn.bytes (toInt args.tagIn.len))
    else .ok ctx

/-- Process the text, and deliver the tag of the output. -/
def transform (ctx : evp.Ctx) (args : Args) : Except Halt (Op evp) := do
  let (ctx, update) := evp.update ctx args.textIn.bytes (toInt args.textIn.len)
  let textOut ← args.textOut.write update.written
  if ¬ update.ok then .ok ⟨.errGeneric, ctx, textOut, args.tagOut⟩
  else if update.outLen ≠ toInt args.textOut.len then .error .assertFailed
  else
    let (ctx, ok) := evp.final ctx
    if ¬ ok then .ok ⟨.errGeneric, ctx, textOut, args.tagOut⟩
    else if hwaesCheckArgOut args.tagOut = .noError then do
      let (ctx, ok, tag) := evp.getTag ctx (toInt args.tagOut.len)
      let tagOut ← args.tagOut.write tag
      if ¬ ok then .ok ⟨.errGeneric, ctx, textOut, tagOut⟩
      else .ok ⟨.noError, ctx, textOut, tagOut⟩
    else .ok ⟨.noError, ctx, textOut, args.tagOut⟩

/-- `hwaes_aes_op` once the key is known. -/
def operate (ctx : evp.Ctx) (args : Args) (key : List UInt8) : Except Halt (Op evp) :=
  match selectCipher args key.length with
  | .error rc => .ok ⟨rc, ctx, args.textOut, args.tagOut⟩
  | .ok cipher =>
      match configure ctx args cipher key with
      | .error (rc, ctx) => .ok ⟨rc, ctx, args.textOut, args.tagOut⟩
      | .ok ctx => transform ctx args

def hwaesAesOp (ifc : Interface) (client : HwkeyClient) (ctx : evp.Ctx) (args : Args) :
    Except Halt (Op evp) :=
  if checkArgs args ≠ .noError then .ok ⟨checkArgs args, ctx, args.textOut, args.tagOut⟩
  else
    match fetchKey ifc client args with
    | .error rc => .ok ⟨rc, ctx, args.textOut, args.tagOut⟩
    | .ok key => operate ctx args key

structure Event where
  args : Args
  client : HwkeyClient

variable (evp)

/-- The service after `crypt_init`: requests of all clients, one after another. -/
def service (ifc : Interface) : System evp.Ctx Event (Op evp) Halt where
  initial := evp.new
  enabled _ _ := True
  handle ctx event := do
    let op ← hwaesAesOp ifc event.client ctx event.args
    .ok (op.ctx, op)

end TrustyApp.Hwaes
