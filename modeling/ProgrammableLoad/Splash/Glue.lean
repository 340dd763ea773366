/-
# `Splash.Glue` — the text above the progress bar, on its way to the daemon

`splash_update_message` copies a text into the 256 bytes of a message's field,
which it cuts off after 255, and the daemon takes what lies there before the
terminator.  The cut is made in bytes, so it may go through a character.  And
the daemon does not look for a terminator: it relies on the sender for one.
-/
import ProgrammableLoad.Splash.RpcListener
import ProgrammableLoad.Theory.Utf8

namespace Splash

open Cpp Program Utf8

/-! ## The sender -/

/-- The `n` bytes of a number, in the machine's order. -/
def littleEndianBytes : Nat → Nat → List Byte
  | 0, _ => []
  | n + 1, value => BitVec.ofNat 8 value :: littleEndianBytes n (value / 256)

/-- The message as it lies in memory, with the gap before the union cleared. -/
def SplashRpcMessage.bytes (msg : SplashRpcMessage) : List Byte :=
  littleEndianBytes 4 msg.type ++ List.replicate 4 0 ++ msg.payload

/-- `splash_update_message`: what it sends of the text at `str`.  The message
was cleared, and the last byte of the field is not written to. -/
def splashUpdateMessage (str : List Byte) : List Byte :=
  SplashRpcMessage.bytes ⟨kSplashRpcTypeSetMessage, strncpy str 255 ++ [0]⟩

/-! ## What is promised -/

/-- A text in UTF-8 that may end in a terminator. -/
structure Text where
  string : String
  not_mem : 0 ∉ utf8 string

/-- A message of the full size that sets the text. -/
structure SetMessage where
  bytes : List Byte
  length_eq : bytes.length = messageSize
  type_eq : (SplashRpcMessage.read bytes).type = kSplashRpcTypeSetMessage

/-- The field of the message. -/
def SetMessage.message (msg : SetMessage) : List Byte := (SplashRpcMessage.read msg.bytes).payload

/-- The daemon takes the datagram and shows the text from then on. -/
def Installs (bytes text : List Byte) : Prop :=
  ∀ fd s, (RpcListener.handleClientMessage fd (.datagram bytes)).run s
    = .ok true { s with drawer := s.drawer.setProgressString text }

/-- What the daemon shows is a prefix of the text, in UTF-8 again, and all of
it if the field can take it. -/
def Text.Survives (text : Text) : Prop :=
  ∃ shown : String, Installs (splashUpdateMessage (utf8 text.string ++ [0])) (utf8 shown) ∧
    utf8 shown <+: utf8 text.string ∧
    ((utf8 text.string).length < 256 → shown = text.string)

/-- What the daemon shows is made of bytes of the field. -/
def SetMessage.StaysInField (msg : SetMessage) : Prop :=
  ∃ shown, Installs msg.bytes shown ∧ shown <:+: msg.message

/-- If the text has a byte behind the 255 that are sent, that starts a character. -/
def Text.Fits (text : Text) : Prop :=
  ∀ b, (utf8 text.string)[255]? = some b → (UInt8.ofBitVec b).IsUTF8FirstByte

/-! ## Messages -/

section Messages

variable {n value : Nat} {bytes text str : List Byte} {msg : SplashRpcMessage}

@[simp] theorem length_littleEndianBytes (n value : Nat) :
    (littleEndianBytes n value).length = n := by
  induction n generalizing value with
  | zero => rfl
  | succ n ih => rw [littleEndianBytes, List.length_cons, ih]

theorem littleEndian_littleEndianBytes (h : value < 256 ^ n) :
    littleEndian (littleEndianBytes n value) = value := by
  induction n generalizing value with
  | zero =>
      have hzero : value = 0 := by omega
      rw [hzero]
      rfl
  | succ n ih =>
      have hdiv : value / 256 < 256 ^ n := Nat.div_lt_of_lt_mul (by rw [← Nat.pow_succ']; exact h)
      rw [littleEndianBytes, littleEndian, ih hdiv, BitVec.toNat_ofNat]
      omega

/-- A message is read back as it was written. -/
theorem read_bytes (htype : msg.type < 2 ^ 32) (hpayload : msg.payload.length = 256) :
    SplashRpcMessage.read msg.bytes = msg := by
  have htake : msg.bytes.take 4 = littleEndianBytes 4 msg.type := by
    rw [SplashRpcMessage.bytes, List.append_assoc]
    exact List.take_left' (length_littleEndianBytes 4 msg.type)
  have hdrop : msg.bytes.drop 8 = msg.payload := List.drop_left' (by simp)
  rw [SplashRpcMessage.read, htake, littleEndian_littleEndianBytes htype, hdrop,
    List.take_of_length_le (Nat.le_of_eq hpayload)]

/-- A message of the full size is not refused for its size. -/
theorem handleClientMessage_of_length (fd : Nat) (h : bytes.length = messageSize) :
    RpcListener.handleClientMessage fd (.datagram bytes)
      = RpcListener.handleMessage (.read bytes) := by
  have hempty : ¬ bytes.isEmpty = true := by
    intro hempty
    rw [List.isEmpty_iff.mp hempty] at h
    cases h
  have hlength : ¬ bytes.length < messageSize := Nat.not_lt.mpr (Nat.le_of_eq h.symm)
  rw [RpcListener.handleClientMessage, if_neg hempty, if_neg hlength]

theorem SetMessage.run_of_some (msg : SetMessage) (fd : Nat) (s : RpcListener)
    (h : (SplashRpcMessage.read msg.bytes).message = some text) :
    (RpcListener.handleClientMessage fd (.datagram msg.bytes)).run s
      = .ok true { s with drawer := s.drawer.setProgressString text } := by
  rw [handleClientMessage_of_length fd msg.length_eq, RpcListener.handleMessage, msg.type_eq, h]
  rfl

theorem SetMessage.run_of_none (msg : SetMessage) (fd : Nat) (s : RpcListener)
    (h : (SplashRpcMessage.read msg.bytes).message = none) :
    (RpcListener.handleClientMessage fd (.datagram msg.bytes)).run s
      = .error (.undefined "std::string_view") s := by
  rw [handleClientMessage_of_length fd msg.length_eq, RpcListener.handleMessage, msg.type_eq, h]
  rfl

/-- The daemon shows what the field has before its terminator. -/
theorem SetMessage.installs_iff (msg : SetMessage) :
    Installs msg.bytes text ↔ (SplashRpcMessage.read msg.bytes).message = some text := by
  constructor
  · intro h
    have hstart := h 0 (.start 0 .initial)
    cases hmessage : (SplashRpcMessage.read msg.bytes).message with
    | none =>
        rw [msg.run_of_none 0 _ hmessage] at hstart
        cases hstart
    | some shown =>
        rw [msg.run_of_some 0 _ hmessage] at hstart
        cases hstart
        rfl
  · intro h fd s
    exact msg.run_of_some fd s h

theorem SetMessage.staysInField_iff (msg : SetMessage) : msg.StaysInField ↔ 0 ∈ msg.message := by
  simp only [SetMessage.StaysInField, msg.installs_iff, SetMessage.message,
    SplashRpcMessage.message]
  constructor
  · rintro ⟨shown, hshown, _⟩
    by_contra hmem
    rw [if_neg hmem] at hshown
    cases hshown
  · intro hmem
    exact ⟨_, if_pos hmem, (List.takeWhile_prefix _).isInfix⟩

end Messages

/-! ## The text -/

section Field

variable {field : List Byte}

theorem length_bytes (msg : SplashRpcMessage) (h : msg.payload.length = 256) :
    msg.bytes.length = messageSize := by
  rw [SplashRpcMessage.bytes, List.length_append, List.length_append, length_littleEndianBytes,
    List.length_replicate, h, messageSize]

theorem read_setMessage (h : field.length = 256) :
    SplashRpcMessage.read (SplashRpcMessage.bytes ⟨kSplashRpcTypeSetMessage, field⟩)
      = ⟨kSplashRpcTypeSetMessage, field⟩ := by
  have htype : kSplashRpcTypeSetMessage < 2 ^ 32 := by decide
  exact read_bytes htype h

theorem type_setMessage (h : field.length = 256) :
    (SplashRpcMessage.read (SplashRpcMessage.bytes ⟨kSplashRpcTypeSetMessage, field⟩)).type
      = kSplashRpcTypeSetMessage := by
  rw [read_setMessage h]

/-- The message with that field. -/
def SetMessage.ofField (field : List Byte) (h : field.length = 256) : SetMessage where
  bytes := SplashRpcMessage.bytes ⟨kSplashRpcTypeSetMessage, field⟩
  length_eq := length_bytes _ h
  type_eq := type_setMessage h

theorem SetMessage.message_ofField (h : field.length = 256) :
    (SetMessage.ofField field h).message = field := by
  rw [SetMessage.message, SetMessage.ofField, read_setMessage h]

theorem length_field (str : List Byte) : (strncpy str 255 ++ [0]).length = 256 := by
  rw [List.length_append, length_strncpy]
  rfl

/-- Of a text what the field takes of it arrives. -/
theorem message_field (str : List Byte) :
    (SplashRpcMessage.mk kSplashRpcTypeSetMessage (strncpy str 255 ++ [0])).message
      = some ((str.takeWhile (· ≠ 0)).take 255) := by
  have hkept : ∀ c ∈ (str.takeWhile (· ≠ 0)).take 255, decide (c ≠ 0) = true :=
    fun c hc => List.mem_takeWhile_imp (p := fun c => decide (c ≠ 0)) (List.mem_of_mem_take hc)
  have hfield : strncpy str 255 ++ [0] = (str.takeWhile (· ≠ 0)).take 255 ++
      List.replicate (255 - ((str.takeWhile (· ≠ 0)).take 255).length + 1) 0 := by
    rw [strncpy, List.append_assoc, List.replicate_succ']
  rw [SplashRpcMessage.message, hfield, if_pos]
  · rw [List.takeWhile_append_of_pos hkept, List.replicate_succ]
    exact congrArg some (List.append_nil _)
  · exact List.mem_append_right _ List.mem_cons_self

end Field

namespace Text

/-- The first 255 bytes of the text are what arrives. -/
theorem message_sent (text : Text) :
    (SplashRpcMessage.read (splashUpdateMessage (utf8 text.string ++ [0]))).message
      = some ((utf8 text.string).take 255) := by
  rw [splashUpdateMessage, read_setMessage (length_field _), message_field,
    takeWhile_append_zero text.not_mem]

theorem survives_iff (text : Text) : text.Survives ↔ text.Fits := by
  have hinstalls : ∀ shown, Installs (splashUpdateMessage (utf8 text.string ++ [0])) shown ↔
      shown = (utf8 text.string).take 255 := by
    intro shown
    refine (SetMessage.ofField _ (length_field (utf8 text.string ++ [0]))).installs_iff.trans ?_
    have hsent := text.message_sent
    rw [splashUpdateMessage] at hsent
    rw [SetMessage.ofField, hsent, Option.some.injEq]
    exact eq_comm
  rw [Text.Fits, ← exists_utf8_eq_take_iff]
  constructor
  · rintro ⟨shown, hshown, _⟩
    exact ⟨shown, (hinstalls _).mp hshown⟩
  · rintro ⟨shown, hshown⟩
    refine ⟨shown, (hinstalls _).mpr hshown, hshown ▸ List.take_prefix _ _, ?_⟩
    intro hlength
    rw [List.take_of_length_le (Nat.le_of_lt_succ hlength)] at hshown
    exact utf8_inj hshown

end Text

/-- A text survives if and only if the cut does not go through a character,
and the daemon stays in the field of a message if and only if the field has a
terminator. -/
theorem survives_iff_and_staysInField_iff (text : Text) (msg : SetMessage) :
    (text.Survives ↔ text.Fits) ∧ (msg.StaysInField ↔ 0 ∈ msg.message) :=
  ⟨text.survives_iff, msg.staysInField_iff⟩

/-! ## A cut character, and a field without a terminator -/

/-- Letters of one byte, and one of two. -/
def accented (n : Nat) : String := String.ofList (List.replicate n 'a' ++ ['é'])

theorem utf8_accented (n : Nat) : utf8 (accented n) = List.replicate n 97 ++ [195, 169] := by
  have hletters : (List.replicate n 'a').flatMap String.utf8EncodeChar = List.replicate n 97 := by
    induction n with
    | zero => rfl
    | succ n ih =>
        rw [List.replicate_succ, List.flatMap_cons, ih]
        rfl
  rw [accented, utf8_ofList, List.flatMap_append, List.map_append, hletters, List.map_replicate]
  rfl

theorem zero_not_mem_accented (n : Nat) : 0 ∉ utf8 (accented n) := by
  rw [utf8_accented]
  intro hmem
  rcases List.mem_append.mp hmem with hmem | hmem
  · cases List.eq_of_mem_replicate hmem
  · revert hmem
    decide

/-- A letter that takes the bytes 254 and 255 is cut, and a field that is full
is left at its end. -/
theorem accented_not_survives :
    ¬ Text.Survives ⟨accented 254, zero_not_mem_accented 254⟩ ∧
      ¬ (SetMessage.ofField (List.replicate 256 97) List.length_replicate).StaysInField := by
  rw [Text.survives_iff, SetMessage.staysInField_iff]
  constructor
  · intro hfits
    have hcut : (utf8 (accented 254))[255]? = some 169 := by
      rw [utf8_accented, List.getElem?_append_right (by rw [List.length_replicate]; decide),
        List.length_replicate]
      rfl
    have hfirst := hfits 169 hcut
    revert hfirst
    decide
  · rw [SetMessage.message_ofField]
    intro hmem
    cases List.eq_of_mem_replicate hmem

end Splash
