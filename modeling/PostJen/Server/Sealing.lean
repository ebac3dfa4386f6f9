import PostJen.Server.Vault

/-! The server's key, and the secrets it encrypts.

The key is read once from the environment of the process. Secrets are encrypted
under it by a cipher of another crate and kept as hexadecimal texts, which are
decoded, decrypted and read as UTF-8 when a run is prepared.
-/

set_option autoImplicit false

open PostJen.Foundations PostJen.Core

namespace PostJen.Server

abbrev Bytes : Type := List (Fin 256)

/-- `value as u8`. -/
def asU8 (value : Nat) : Fin 256 := ⟨value % 256, Nat.mod_lt value (by decide)⟩

/-! ## Hexadecimal texts -/

inductive FromHexError where
  | invalidHexCharacter (byte : Fin 256) (index : Nat)
  | oddLength
  deriving DecidableEq

/-- The value of a digit in either case, with its position for the error. -/
def hexValue (byte : Fin 256) (index : Nat) : Except FromHexError Nat :=
  if 65 ≤ byte.val ∧ byte.val ≤ 70 then .ok (byte.val - 55)
  else if 97 ≤ byte.val ∧ byte.val ≤ 102 then .ok (byte.val - 87)
  else if 48 ≤ byte.val ∧ byte.val ≤ 57 then .ok (byte.val - 48)
  else .error (.invalidHexCharacter byte index)

def hexPairs : Bytes → Nat → Except FromHexError Bytes
  | high :: low :: rest, index => do
      let first ← hexValue high index
      let second ← hexValue low (index + 1)
      let bytes ← hexPairs rest (index + 2)
      return asU8 (16 * first + second) :: bytes
  | [_], _ => .error .oddLength
  | [], _ => .ok []

/-- `str::as_bytes`. -/
def asBytes (text : String) : Bytes := (text.toList.flatMap String.utf8EncodeChar).map UInt8.toFin

/-- `String::from_utf8`. -/
def fromUtf8 (bytes : Bytes) : Option String := String.fromUTF8? (bytes.map UInt8.ofFin).toByteArray

/-- `hex::decode`. -/
def hexDecode (text : String) : Except FromHexError Bytes :=
  if (asBytes text).length % 2 ≠ 0 then .error .oddLength else hexPairs (asBytes text) 0

theorem fromUtf8_asBytes (text : String) : fromUtf8 (asBytes text) = some text := by
  have same : ((asBytes text).map UInt8.ofFin).toByteArray = text.toByteArray := by
    unfold asBytes
    rw [List.map_map, show UInt8.ofFin ∘ UInt8.toFin = id from funext fun byte => rfl, List.map_id]
    exact String.utf8Encode_toList
  unfold fromUtf8 String.fromUTF8?
  rw [same, dif_pos text.isValidUTF8]
  rfl

def hexCode (digit : Nat) : Fin 256 := asU8 (if digit < 10 then 48 + digit else 87 + digit)

theorem asBytes_hexDigit : ∀ digit < 16, (String.utf8EncodeChar (hexDigit digit)).map UInt8.toFin = [hexCode digit] := by
  decide

def lowerHex (byte : Fin 256) : Fin 256 := if 65 ≤ byte.val ∧ byte.val ≤ 70 then asU8 (byte.val + 32) else byte

theorem hexCode_val {digit : Nat} (small : digit < 16) :
    (hexCode digit).val = if digit < 10 then 48 + digit else 87 + digit := by
  unfold hexCode
  split <;> exact Nat.mod_eq_of_lt (by omega)

theorem hexValue_eq_ok {byte : Fin 256} {index digit : Nat} :
    hexValue byte index = .ok digit ↔ digit < 16 ∧ lowerHex byte = hexCode digit := by
  have lowered : (lowerHex byte).val = if 65 ≤ byte.val ∧ byte.val ≤ 70 then byte.val + 32 else byte.val := by
    unfold lowerHex
    split
    · exact Nat.mod_eq_of_lt (by omega)
    · rfl
  constructor
  · intro read
    have small : digit < 16 := by
      unfold hexValue at read
      split at read
      · cases read
        omega
      split at read
      · cases read
        omega
      split at read
      · cases read
        omega
      · cases read
    refine ⟨small, Fin.ext ?_⟩
    rw [lowered, hexCode_val small]
    unfold hexValue at read
    split at read
    · cases read
      rw [if_pos ‹_›, if_neg (by omega)]
      omega
    split at read
    · cases read
      rw [if_neg ‹_›, if_neg (by omega)]
      omega
    split at read
    · cases read
      rw [if_neg ‹_›, if_pos (by omega)]
      omega
    · cases read
  · rintro ⟨small, same⟩
    have value := congrArg Fin.val same
    rw [lowered, hexCode_val small] at value
    unfold hexValue
    split at value
    · rw [if_pos ‹_›]
      exact congrArg Except.ok (by split at value <;> omega)
    · rw [if_neg ‹_›]
      split at value
      · rw [if_neg (by omega), if_pos (by omega)]
        exact congrArg Except.ok (by omega)
      · rw [if_pos (by omega)]
        exact congrArg Except.ok (by omega)

def hexByte (byte : Fin 256) : Bytes := [hexCode (byte.val / 16), hexCode (byte.val % 16)]

theorem asBytes_hexEncode (bytes : Bytes) : asBytes (hexEncode bytes) = bytes.flatMap hexByte := by
  unfold asBytes hexEncode
  rw [String.toList_ofList, List.flatMap_assoc, List.map_flatMap]
  refine List.flatMap_congr fun byte _ => ?_
  have high := asBytes_hexDigit (byte.val / 16) (by omega)
  have low := asBytes_hexDigit (byte.val % 16) (by omega)
  simp only [List.flatMap_cons, List.flatMap_nil, List.append_nil, List.map_append, high, low]
  rfl

/-- What is decoded is what was written, but for the case of the digits. -/
theorem hexPairs_eq_ok {text bytes : Bytes} {index : Nat} :
    hexPairs text index = .ok bytes ↔ text.map lowerHex = bytes.flatMap hexByte := by
  have joined : ∀ high low : Nat, high < 16 → low < 16 →
      hexByte (asU8 (16 * high + low)) = [hexCode high, hexCode low] := by
    intro high low small small'
    have value : (asU8 (16 * high + low)).val = 16 * high + low := Nat.mod_eq_of_lt (by omega)
    rw [hexByte, value, show (16 * high + low) / 16 = high by omega, show (16 * high + low) % 16 = low by omega]
  induction text, index using hexPairs.induct generalizing bytes with
  | case1 high low rest index ih =>
    rw [hexPairs]
    constructor
    · intro read
      cases first : hexValue high index with
      | error why => rw [first] at read; cases read
      | ok digit =>
        cases second : hexValue low (index + 1) with
        | error why => rw [first, second] at read; cases read
        | ok digit' =>
          cases others : hexPairs rest (index + 2) with
          | error why => rw [first, second, others] at read; cases read
          | ok more =>
            rw [first, second, others] at read
            cases read
            obtain ⟨small, upper⟩ := hexValue_eq_ok.mp first
            obtain ⟨small', lower⟩ := hexValue_eq_ok.mp second
            rw [List.flatMap_cons, joined _ _ small small', List.map_cons, List.map_cons, upper, lower, ih.mp others]
            rfl
    · intro same
      cases bytes with
      | nil => cases same
      | cons byte more =>
        rw [List.flatMap_cons, List.map_cons, List.map_cons] at same
        obtain ⟨upper, same⟩ := List.cons.inj same
        obtain ⟨lower, others⟩ := List.cons.inj same
        rw [hexValue_eq_ok.mpr ⟨show byte.val / 16 < 16 by omega, upper⟩,
          hexValue_eq_ok.mpr ⟨show byte.val % 16 < 16 by omega, lower⟩, ih.mpr others]
        have whole : asU8 (16 * (byte.val / 16) + byte.val % 16) = byte := by
          rw [Nat.div_add_mod]
          exact Fin.ext (Nat.mod_eq_of_lt byte.isLt)
        exact congrArg (fun byte => Except.ok (byte :: more)) whole
  | case2 byte index =>
    constructor
    · intro read
      cases read
    · intro same
      cases bytes with
      | nil => cases same
      | cons _ more => cases (List.cons.inj same).2
  | case3 index =>
    constructor
    · intro read
      cases read
      rfl
    · intro same
      cases bytes with
      | nil => rfl
      | cons _ more => cases same

theorem hexDecode_eq_ok {text : String} {bytes : Bytes} :
    hexDecode text = .ok bytes ↔ (asBytes text).map lowerHex = asBytes (hexEncode bytes) := by
  rw [asBytes_hexEncode, hexDecode]
  split
  · rename_i odd
    constructor
    · intro read
      cases read
    · intro same
      have length := congrArg List.length same
      rw [List.length_map, List.length_flatMap] at length
      simp [hexByte] at length
      omega
  · exact hexPairs_eq_ok

theorem hexDecode_hexEncode (bytes : Bytes) : hexDecode (hexEncode bytes) = .ok bytes := by
  refine hexDecode_eq_ok.mpr ?_
  rw [asBytes_hexEncode, List.map_flatMap]
  refine List.flatMap_congr fun byte _ => ?_
  have lower : ∀ digit < 16, lowerHex (hexCode digit) = hexCode digit := by
    intro digit small
    unfold lowerHex
    rw [hexCode_val small, if_neg (by split <;> omega)]
  rw [hexByte, List.map_cons, List.map_cons, lower _ (by omega), lower _ (by omega), List.map_nil]

/-! ## `config.rs` -/

structure ServerConfig (Addr : Type) where
  bindAddr : Addr
  databaseUrl : String
  artifactsDir : String
  secretKey : Option Bytes

/-- `Config::from_env`; a variable that is no Unicode counts as one that is not set. -/
def ServerConfig.fromEnv {Addr : Type} (parseAddr : String → Except AnyError Addr) (env : String → Option String) :
    Except AnyError (ServerConfig Addr) :=
  match parseAddr ((env "POSTJEN_BIND_ADDR").getD "127.0.0.1:3000") with
  | .error why => .error (why.context "failed to parse POSTJEN_BIND_ADDR")
  | .ok bindAddr => .ok {
      bindAddr
      databaseUrl := (env "POSTJEN_DATABASE_URL").getD "sqlite:postjen.db"
      artifactsDir := (env "POSTJEN_ARTIFACTS_DIR").getD "artifacts"
      secretKey := (env "POSTJEN_SECRET_KEY").bind fun text =>
        (hexDecode (trim text)).toOption.filter fun bytes => bytes.length = 32 }

/-- The settings of the server, with its key as a hexadecimal text. -/
def ServerConfig.settings {Addr : Type} (config : ServerConfig Addr) : Settings :=
  ⟨config.artifactsDir, config.secretKey.map hexEncode⟩

/-- A key is accepted when it is written as 64 hexadecimal digits, in either case. -/
def AcceptsKey (env : String → Option String) (key : Bytes) : Prop :=
  key.length = 32 ∧ ∃ text, env "POSTJEN_SECRET_KEY" = some text ∧
    (asBytes (trim text)).map lowerHex = asBytes (hexEncode key)

theorem fromEnv_secretKey {Addr : Type} {parseAddr : String → Except AnyError Addr} {env : String → Option String}
    {config : ServerConfig Addr} (configured : ServerConfig.fromEnv parseAddr env = .ok config) (key : Bytes) :
    config.secretKey = some key ↔ AcceptsKey env key := by
  unfold ServerConfig.fromEnv at configured
  split at configured
  · cases configured
  · cases configured
    rw [Option.bind_eq_some_iff]
    constructor
    · rintro ⟨text, given, filtered⟩
      obtain ⟨decoded, sized⟩ := Option.filter_eq_some_iff.mp filtered
      cases read : hexDecode (trim text) with
      | error why =>
        rw [read] at decoded
        cases decoded
      | ok bytes =>
        rw [read] at decoded
        cases decoded
        exact ⟨of_decide_eq_true sized, text, given, hexDecode_eq_ok.mp read⟩
    · rintro ⟨sized, text, given, written⟩
      refine ⟨text, given, Option.filter_eq_some_iff.mpr ⟨?_, decide_eq_true sized⟩⟩
      rw [hexDecode_eq_ok.mpr written]
      rfl

/-! ## Encryption -/

/-- What `encrypt_secret` and `decrypt_secret` take from other crates: AES-256-GCM and the texts of errors. -/
structure Cipher where
  encrypt : Bytes → Bytes → Bytes → Option Bytes
  decrypt : Bytes → Bytes → Bytes → Option Bytes
  invalidLength : String
  aeadError : String
  hexError : FromHexError → String
  utf8Error : Bytes → String

def Cipher.Opens (cipher : Cipher) : Prop :=
  ∀ key nonce text sealed, key.length = 32 → nonce.length = 12 → cipher.encrypt key nonce text = some sealed →
    cipher.decrypt key nonce sealed = some text

/-- The ciphertext and the nonce, given the random bytes of the nonce. -/
def encryptSecret (cipher : Cipher) (key : Bytes) (plaintext : String) (nonce : Bytes) :
    Except ApiError (String × String) :=
  if key.length ≠ 32 then .error (.internal ("invalid secret key: " ++ cipher.invalidLength))
  else match cipher.encrypt key nonce (asBytes plaintext) with
    | none => .error (.internal ("encryption failed: " ++ cipher.aeadError))
    | some ciphertext => .ok (hexEncode ciphertext, hexEncode nonce)

/-- `Nonce::from_slice` panics when the nonce has another length than 12, which is the result `none`. -/
def decryptSecret (cipher : Cipher) (key : Bytes) (encryptedHex nonceHex : String) : Option (Except ApiError String) :=
  if key.length ≠ 32 then some (.error (.internal ("invalid secret key: " ++ cipher.invalidLength)))
  else match hexDecode encryptedHex with
    | .error why => some (.error (.internal ("invalid encrypted data: " ++ cipher.hexError why)))
    | .ok ciphertext => match hexDecode nonceHex with
      | .error why => some (.error (.internal ("invalid nonce: " ++ cipher.hexError why)))
      | .ok nonce =>
          if nonce.length ≠ 12 then none
          else match cipher.decrypt key nonce ciphertext with
            | none => some (.error (.internal ("decryption failed: " ++ cipher.aeadError)))
            | some plaintext => match fromUtf8 plaintext with
              | none => some (.error (.internal ("invalid utf8: " ++ cipher.utf8Error plaintext)))
              | some text => some (.ok text)

/-- The library functions with the encryption of the server; a key is passed on as its hexadecimal text. -/
def External.sealing (ext : External) (cipher : Cipher) : External where
  __ := ext
  encrypt key value nonce :=
    match hexDecode key, hexDecode nonce with
    | .ok key, .ok nonce =>
        if key.length = 32 ∧ nonce.length = 12 then
          match cipher.encrypt key nonce (asBytes value) with
          | none => .error cipher.aeadError
          | some ciphertext => .ok (hexEncode ciphertext)
        else .error cipher.invalidLength
    | _, _ => .error cipher.invalidLength
  decrypt key secret :=
    match hexDecode key with
    | .ok key => match decryptSecret cipher key secret.encryptedValue secret.nonce with
      | some (.ok text) => .ok text
      | some (.error why) => .error why.message
      | none => .error cipher.invalidLength
    | .error _ => .error cipher.invalidLength

section
variable {ext : External} {cipher : Cipher}

/-- With a key of 32 bytes and a nonce of 12 the model's encryption is that of the source. -/
theorem encryptSecret_sealing {key nonce : Bytes} (sized : key.length = 32) (drawn : nonce.length = 12) (value : String) :
    encryptSecret cipher key value nonce = match (ext.sealing cipher).encrypt (hexEncode key) value (hexEncode nonce) with
      | .error why => .error (.internal ("encryption failed: " ++ why))
      | .ok text => .ok (text, hexEncode nonce) := by
  simp only [encryptSecret, External.sealing, hexDecode_hexEncode, sized, drawn, and_self, if_true, ne_eq,
    not_true_eq_false, if_false]
  cases cipher.encrypt key nonce (asBytes value) <;> rfl

/-- So is its decryption, where the source does not panic. -/
theorem decryptSecret_sealing {key : Bytes} {secret : EncryptedSecret} {outcome : Except ApiError String}
    (decrypted : decryptSecret cipher key secret.encryptedValue secret.nonce = some outcome) :
    outcome = match (ext.sealing cipher).decrypt (hexEncode key) secret with
      | .error why => .error (.internal why)
      | .ok text => .ok text := by
  simp only [External.sealing, hexDecode_hexEncode, decrypted]
  unfold decryptSecret at decrypted
  repeat' split at decrypted
  all_goals cases decrypted
  all_goals rfl

theorem decrypt_sealing {key : Bytes} {secret : EncryptedSecret} {value : String}
    (opened : (ext.sealing cipher).decrypt (hexEncode key) secret = .ok value) :
    decryptSecret cipher key secret.encryptedValue secret.nonce = some (.ok value) := by
  simp only [External.sealing, hexDecode_hexEncode] at opened
  split at opened
  · rename_i text found
    cases opened
    exact found
  · cases opened
  · cases opened

theorem sealing_inverts (opens : cipher.Opens) (key value nonce text : String)
    (encrypted : (ext.sealing cipher).encrypt key value nonce = .ok text) :
    (ext.sealing cipher).decrypt key ⟨text, nonce⟩ = .ok value := by
  simp only [External.sealing] at encrypted ⊢
  split at encrypted
  · rename_i keyBytes nonceBytes readKey readNonce
    split at encrypted
    · rename_i sized
      split at encrypted
      · cases encrypted
      · rename_i ciphertext sealed
        cases encrypted
        have opened := opens keyBytes nonceBytes (asBytes value) ciphertext sized.1 sized.2 sealed
        have decrypted : decryptSecret cipher keyBytes (hexEncode ciphertext) nonce = some (.ok value) := by
          simp only [decryptSecret, sized.1, hexDecode_hexEncode, readNonce, sized.2, opened, fromUtf8_asBytes, ne_eq,
            not_true_eq_false, if_false]
        rw [readKey]
        simp only [decrypted]
    · cases encrypted
  · cases encrypted

end

/-! ## A configured server -/

/-- What a server makes of its key and of the secrets stored under it. -/
structure SealedStore {Addr : Type} (ext : External) (cipher : Cipher) (env : String → Option String)
    (config : ServerConfig Addr) (start : Config) : Prop where
  keyed : ∀ key, config.secretKey = some key ↔ AcceptsKey env key
  /-- Without a key nothing is stored. -/
  locked : config.secretKey = none → ∀ history c name,
    (system (ext.sealing cipher) config.settings).Path everything start history c → c.state.db.secrets.find name = none
  /-- Every stored secret is decrypted to the value stored last. -/
  opens : ∀ key history c name row, config.secretKey = some key →
    (system (ext.sealing cipher) config.settings).Path everything start history c →
    c.state.db.secrets.find name = some row → ∃ value,
      secretValue (ext.sealing cipher) config.settings start history name = some value ∧
      decryptSecret cipher key row.encryptedValue row.nonce = some (.ok value)

theorem sealed_store {Addr : Type} (ext : External) (cipher : Cipher) (opens : cipher.Opens)
    (parseAddr : String → Except AnyError Addr) (env : String → Option String) {config : ServerConfig Addr}
    (configured : ServerConfig.fromEnv parseAddr env = .ok config) (files : String → Option String) (clock : Nat) :
    SealedStore ext cipher env config (Config.initial (ext.sealing cipher) config.settings files clock) where
  keyed := fromEnv_secretKey configured
  locked := by
    intro unkeyed history c name run
    have keeps := (Vault.path_sound (Config.initial_idle _ _ files clock) (sealing_inverts opens) rfl run).keeps name
    cases worth : secretValue (ext.sealing cipher) config.settings
        (Config.initial (ext.sealing cipher) config.settings files clock) history name with
    | none =>
      rw [worth] at keeps
      exact keeps
    | some value =>
      rw [worth] at keeps
      obtain ⟨key, row, keyed, -⟩ := keeps
      rw [ServerConfig.settings, unkeyed] at keyed
      cases keyed
  opens := by
    intro key history c name row keyed run found
    have keeps := (Vault.path_sound (Config.initial_idle _ _ files clock) (sealing_inverts opens) rfl run).keeps name
    cases worth : secretValue (ext.sealing cipher) config.settings
        (Config.initial (ext.sealing cipher) config.settings files clock) history name with
    | none =>
      rw [worth] at keeps
      cases keeps.symm.trans found
    | some value =>
      rw [worth] at keeps
      obtain ⟨text, row', keyed', found', decrypts⟩ := keeps
      cases found.symm.trans found'
      rw [ServerConfig.settings, keyed] at keyed'
      cases keyed'
      have opened := decrypt_sealing decrypts
      exact ⟨value, rfl, opened⟩

namespace Sample

/-- What AES-256-GCM makes of "alpha" under a key and with a nonce of zero bytes, with its tag. -/
def sealedAlpha : Bytes :=
  [175, 203, 48, 85, 44, 44, 39, 219, 49, 66, 8, 240, 14, 124, 81, 123, 133, 147, 203, 209, 30].map asU8

def gcm : Cipher where
  encrypt _ _ text := some (Equiv.swap (asBytes "alpha") sealedAlpha text)
  decrypt _ _ sealed := some (Equiv.swap (asBytes "alpha") sealedAlpha sealed)
  invalidLength := "Invalid Length"
  aeadError := "aead::Error"
  hexError
    | .oddLength => "Odd number of digits"
    | .invalidHexCharacter _ _ => "Invalid character"
  utf8Error _ := "invalid utf-8 sequence"

theorem gcm_opens : gcm.Opens := by
  rintro key nonce text _ - - ⟨⟩
  exact congrArg some (Equiv.swap_apply_eq_iff.mpr rfl)

def env (name : String) : Option String :=
  if name = "POSTJEN_SECRET_KEY" then some " 0000000000000000000000000000000000000000000000000000000000000000\n" else none

def config : ServerConfig String := ⟨"127.0.0.1:3000", "sqlite:postjen.db", "artifacts", some (zeros 32)⟩

theorem configured : ServerConfig.fromEnv .ok env = .ok config := by
  have key : ((env "POSTJEN_SECRET_KEY").bind fun text =>
      (hexDecode (trim text)).toOption.filter fun bytes => bytes.length = 32) = some (zeros 32) := by
    decide +kernel
  have whole : ServerConfig.fromEnv .ok env = .ok ⟨"127.0.0.1:3000", "sqlite:postjen.db", "artifacts",
      (env "POSTJEN_SECRET_KEY").bind fun text =>
        (hexDecode (trim text)).toOption.filter fun bytes => bytes.length = 32⟩ := rfl
  rw [whole, key]
  rfl

def stored : List Label := [.boot "localhost"] ++ storing 0 "DEPLOY_KEY" "alpha"

end Sample

theorem sealed_store_alpha : ∃ c row,
    (system (Sample.ext.sealing Sample.gcm) Sample.config.settings).Path everything
      (Config.initial (Sample.ext.sealing Sample.gcm) Sample.config.settings Sample.files 1000000)
      Sample.stored.reverse c ∧
    c.state.db.secrets.find "DEPLOY_KEY" = some row ∧
    row.encryptedValue = "afcb30552c2c27db314208f00e7c517b8593cbd11e" ∧
    ∃ value, decryptSecret Sample.gcm (Sample.zeros 32) row.encryptedValue row.nonce = some (.ok value) := by
  have passed : ((system (Sample.ext.sealing Sample.gcm) Sample.config.settings).follow (fun _ _ => true)
      (Config.initial (Sample.ext.sealing Sample.gcm) Sample.config.settings Sample.files 1000000)
        Sample.stored).any (fun c => (c.state.db.secrets.find "DEPLOY_KEY").any fun row =>
      row.encryptedValue = "afcb30552c2c27db314208f00e7c517b8593cbd11e") = true := by
    decide +kernel
  obtain ⟨c, followed, passed⟩ := (Option.any_eq_true _ _).mp passed
  obtain ⟨row, found, sealed⟩ := (Option.any_eq_true _ _).mp passed
  have run : (system (Sample.ext.sealing Sample.gcm) Sample.config.settings).Path everything _ (_ ++ []) c :=
    (system (Sample.ext.sealing Sample.gcm) Sample.config.settings).follow_path (fun _ _ _ => trivial) .nil followed
  rw [List.append_nil] at run
  obtain ⟨value, -, opened⟩ := (sealed_store Sample.ext Sample.gcm Sample.gcm_opens .ok Sample.env Sample.configured
    Sample.files 1000000).opens (Sample.zeros 32) _ c "DEPLOY_KEY" row rfl run found
  exact ⟨c, row, run, found, of_decide_eq_true sealed, value, opened⟩

end PostJen.Server
