import AgentGraph.Domain.Json
import AgentGraph.Foundation.Base64
import AgentGraph.Security.Operations

/-! # Credential ids between the browser and the server

The browser writes the bytes of a passkey in base64url without padding, and reads the
challenges of the server in it; the server decodes the `rawId` it is sent. `btoa` and `atob`
are the functions of the HTML standard, `urlsafeB64decode` that of `base64`, which skips
characters outside the alphabet.
-/
set_option autoImplicit false
namespace AgentGraph.Security
open Base64

/-! ## The browser -/

section Frontend

def isAsciiWhitespace (c : Char) : Bool := [' ','\t','\n','\r','\x0c'].contains c

/-- A text of whole groups without the one or two pad characters it ends with. -/
def withoutPadding (text : List Char) : List Char :=
  if text.length % 4 = 0 then
    match text.reverse with
    | c :: d :: rest => if c = '=' then if d = '=' then rest.reverse else (d :: rest).reverse else text
    | _ => text
  else text

/-- `atob`; `none` is an `InvalidCharacterError`. -/
def atob (text : List Char) : Option (List Char) :=
  let data := withoutPadding (text.filter fun c => !isAsciiWhitespace c)
  ((data.mapM value?).bind bytes).map fun decoded => decoded.map fun byte => Char.ofNat byte.toNat

/-- `btoa`; `none` is an `InvalidCharacterError`. -/
def btoa (text : List Char) : Option (List Char) :=
  if text.all fun c => decide (c.toNat ≤ 255) then some (encode (text.map fun c => UInt8.ofNat c.toNat))
  else none

def replaceAll (old new : Char) (text : List Char) : List Char := text.map fun c => if c = old then new else c

/-- `text.padEnd(length, "=")`. -/
def padEnd (length : ℕ) (text : List Char) : List Char := text ++ List.replicate (length - text.length) '='

def base64UrlToBytes (value : String) : Option (List UInt8) :=
  let base64 := padEnd ((value.toList.length + 3) / 4 * 4) (replaceAll '_' '/' (replaceAll '-' '+' value.toList))
  (atob base64).map fun text => text.map fun character => UInt8.ofNat character.toNat

def bytesToBase64Url (value : List UInt8) : Option String :=
  (btoa (value.map fun byte => Char.ofNat byte.toNat)).map fun base64 =>
    String.ofList ((replaceAll '/' '_' (replaceAll '+' '-' base64)).filter fun c => c != '=')

/-- The authenticator responses that `credentialJson` tells apart. -/
inductive AuthenticatorResponse
  | attestation (clientDataJson attestationObject : List UInt8) (transports : Option (List String))
  | assertion (clientDataJson authenticatorData signature : List UInt8) (userHandle : Option (List UInt8))
  | other

def AuthenticatorResponse.supported : AuthenticatorResponse → Bool
  | .other => false
  | _ => true

structure PublicKeyCredential where
  id : String
  rawId : List UInt8
  type : String
  clientExtensionResults : Json
  response : AuthenticatorResponse

/-- A member that is `undefined` is not sent. -/
def AuthenticatorResponse.json : AuthenticatorResponse → Option JsonObject
  | .attestation clientDataJson attestationObject transports => do
    let clientDataJson ← bytesToBase64Url clientDataJson
    let attestationObject ← bytesToBase64Url attestationObject
    some ([("clientDataJSON",.str clientDataJson),("attestationObject",.str attestationObject)] ++
      match transports with
      | none => []
      | some names => [("transports",.arr (names.map .str))])
  | .assertion clientDataJson authenticatorData signature userHandle => do
    let clientDataJson ← bytesToBase64Url clientDataJson
    let authenticatorData ← bytesToBase64Url authenticatorData
    let signature ← bytesToBase64Url signature
    let userHandle ← match userHandle with
      | none => some .null
      | some bytes => (bytesToBase64Url bytes).map Json.str
    some [("clientDataJSON",.str clientDataJson),("authenticatorData",.str authenticatorData),
      ("signature",.str signature),("userHandle",userHandle)]
  | .other => none

/-- `credentialJson`; `none` is an exception, and an unsupported response is one. -/
def credentialJson (credential : PublicKeyCredential) : Option JsonObject := do
  let rawId ← bytesToBase64Url credential.rawId
  let response ← credential.response.json
  some [("id",.str credential.id),("rawId",.str rawId),("type",.str credential.type),
    ("clientExtensionResults",credential.clientExtensionResults),("response",.obj response)]

end Frontend

/-! ## The server -/

/-- The loop of `binascii.a2b_base64`, with the place in the group, the bits left over and
the pad characters seen; `none` is a `binascii.Error`. -/
def a2bBase64 : List Char → ℕ → ℕ → ℕ → Option (List UInt8)
  | [], quadPos, _, _ => if quadPos = 0 then some [] else none
  | c :: rest, quadPos, leftchar, pads =>
    if c = '=' then
      if 2 ≤ quadPos then
        if 4 ≤ quadPos + (pads + 1) then some [] else a2bBase64 rest quadPos leftchar (pads + 1)
      else a2bBase64 rest quadPos leftchar pads
    else
      match value? c with
      | none => a2bBase64 rest quadPos leftchar pads
      | some this =>
        match quadPos with
        | 0 => a2bBase64 rest 1 this 0
        | 1 => (a2bBase64 rest 2 (this % 16) 0).map fun tail => UInt8.ofNat (leftchar * 4 + this / 16) :: tail
        | 2 => (a2bBase64 rest 3 (this % 4) 0).map fun tail => UInt8.ofNat (leftchar * 16 + this / 4) :: tail
        | _ => (a2bBase64 rest 0 0 0).map fun tail => UInt8.ofNat (leftchar * 64 + this) :: tail

/-- `base64.urlsafe_b64decode`; `none` is a `ValueError`. -/
def urlsafeB64decode (text : List Char) : Option (List UInt8) :=
  if text.all fun c => decide (c.toNat < 128) then
    a2bBase64 (replaceAll '_' '/' (replaceAll '-' '+' text)) 0 0 0
  else none

/-- `_base64url_decode`. -/
def base64urlDecode (value : String) : Except ServiceError (List UInt8) :=
  let padding := (-(value.toList.length : ℤ) % 4).toNat
  match urlsafeB64decode (value.toList ++ List.replicate padding '=') with
  | none => .error loginFailed
  | some data => .ok data

/-- The `credential_id` of `finish_passkey_authentication`. -/
def credentialId (credential : JsonObject) : Except ServiceError (List UInt8) :=
  match (credential.get "rawId").str? with
  | none => .error loginFailed
  | some rawId => base64urlDecode rawId

/-! ## The text of the browser -/

theorem toNat_char (byte : UInt8) : (Char.ofNat byte.toNat).toNat = byte.toNat := by
  have hvalid : byte.toNat.isValidChar := .inl (by have := byte.toNat_lt; omega)
  rw [Char.ofNat, dif_pos hvalid]
  exact UInt32.toNat_ofNatLT

/-- A binary string and the bytes it holds. -/
theorem map_char_map (data : List UInt8) :
    (data.map fun byte => Char.ofNat byte.toNat).map (fun c => UInt8.ofNat c.toNat) = data := by
  rw [List.map_map]
  refine (List.map_congr_left fun byte _ => ?_).trans (List.map_id data)
  simp only [Function.comp_apply, toNat_char, UInt8.ofNat_toNat, id]

theorem symbol_ne_pad : ∀ n < 64, symbol n ≠ '=' := by decide

theorem replaceAll_map (old new : Char) (f : ℕ → Char) (ns : List ℕ) :
    replaceAll old new (ns.map f) = ns.map fun n => if f n = old then new else f n := by
  simp only [replaceAll, List.map_map]
  rfl

theorem replaceAll_unpadded (data : List UInt8) :
    replaceAll '/' '_' (replaceAll '+' '-' (unpadded data)) = urlUnpadded data := by
  have hall : ∀ n < 64, (let c := if symbol n = '+' then '-' else symbol n
      if c = '/' then '_' else c) = urlSymbol n := by decide
  rw [unpadded, replaceAll_map, replaceAll_map]
  exact List.map_congr_left fun n hn => hall n (sextets_lt data n hn)

theorem replaceAll_urlUnpadded (data : List UInt8) :
    replaceAll '_' '/' (replaceAll '-' '+' (urlUnpadded data)) = unpadded data := by
  have hall : ∀ n < 64, (let c := if urlSymbol n = '-' then '+' else urlSymbol n
      if c = '_' then '/' else c) = symbol n := by decide
  rw [urlUnpadded, replaceAll_map, replaceAll_map]
  exact List.map_congr_left fun n hn => hall n (sextets_lt data n hn)

theorem replaceAll_append (old new : Char) (a b : List Char) :
    replaceAll old new (a ++ b) = replaceAll old new a ++ replaceAll old new b := List.map_append

theorem replaceAll_pads {old new : Char} (h : old ≠ '=') (k : ℕ) :
    replaceAll old new (List.replicate k '=') = List.replicate k '=' := by
  rw [replaceAll, List.map_replicate, if_neg h.symm]

theorem btoa_bytes (data : List UInt8) :
    btoa (data.map fun byte => Char.ofNat byte.toNat) = some (encode data) := by
  have hall : (data.map fun byte => Char.ofNat byte.toNat).all (fun c => decide (c.toNat ≤ 255)) = true := by
    rw [List.all_eq_true]
    intro c hc
    obtain ⟨byte,-,rfl⟩ := List.mem_map.mp hc
    have hlt := byte.toNat_lt
    rw [toNat_char]
    exact decide_eq_true (by omega)
  rw [btoa, if_pos hall, map_char_map]

theorem bytesToBase64Url_eq (data : List UInt8) : bytesToBase64Url data = some (String.ofList (urlUnpadded data)) := by
  have hkeep : (urlUnpadded data).filter (fun c => c != '=') = urlUnpadded data := by
    have hne : ∀ c ∈ urlUnpadded data, c ≠ '=' := forall_urlUnpadded (by decide) data
    exact List.filter_eq_self.mpr fun c hc => bne_iff_ne.mpr (hne c hc)
  have hdrop (k : ℕ) : (List.replicate k '=').filter (fun c => c != '=') = [] :=
    List.filter_eq_nil_iff.mpr fun c hc => by simp [List.eq_of_mem_replicate hc]
  rw [bytesToBase64Url, btoa_bytes, Option.map_some, encode, replaceAll_append, replaceAll_append,
    replaceAll_pads (by decide), replaceAll_pads (by decide), replaceAll_unpadded, List.filter_append, hkeep,
    hdrop, List.append_nil]

/-! ## The decoders on a padded text -/

theorem withoutPadding_append {text : List Char} (htext : ∀ c ∈ text, c ≠ '=') {k : ℕ} (hk : k ≤ 2)
    (hlen : (text ++ List.replicate k '=').length % 4 = 0) :
    withoutPadding (text ++ List.replicate k '=') = text := by
  rw [withoutPadding, if_pos hlen, List.reverse_append, List.reverse_replicate]
  obtain rfl | rfl | rfl : k = 0 ∨ k = 1 ∨ k = 2 := by omega
  · simp only [List.replicate_zero, List.nil_append, List.append_nil]
    cases hrev : text.reverse with
    | nil => rfl
    | cons c rest =>
      have hc : c ≠ '=' := htext c (List.mem_reverse.mp (hrev ▸ List.mem_cons_self))
      cases rest with
      | nil => rfl
      | cons d rest => exact if_neg hc
  · cases hrev : text.reverse with
    | nil => simp [List.reverse_eq_nil_iff.mp hrev] at hlen
    | cons d rest =>
      have hd : d ≠ '=' := htext d (List.mem_reverse.mp (hrev ▸ List.mem_cons_self))
      simp only [List.replicate_one, List.cons_append, List.nil_append, if_true, if_neg hd]
      rw [← hrev, List.reverse_reverse]
  · simp [List.replicate_succ]

theorem mapM_value? {ns : List ℕ} (h : ∀ n ∈ ns, n < 64) : (ns.map symbol).mapM value? = some ns := by
  induction ns with
  | nil => rfl
  | cons n ns ih =>
    simp only [List.map_cons, List.mapM_cons, value?_symbol (h n (by simp)), ih fun m hm => h m (by simp [hm])]
    rfl

theorem atob_encode (data : List UInt8) :
    atob (encode data) = some (data.map fun byte => Char.ofNat byte.toNat) := by
  have hkeep : (encode data).filter (fun c => !isAsciiWhitespace c) = encode data := by
    have hdark : ∀ c ∈ encode data, isAsciiWhitespace c = false :=
      forall_encode (p := fun c => isAsciiWhitespace c = false) (by decide) rfl data
    exact List.filter_eq_self.mpr fun c hc => by rw [hdark c hc, Bool.not_false]
  have hclear : ∀ c ∈ unpadded data, c ≠ '=' := forall_unpadded symbol_ne_pad data
  have hlen : (unpadded data ++ List.replicate (padding data.length) '=').length % 4 = 0 := by
    rw [List.length_append, List.length_replicate, unpadded, List.length_map, padding_eq]
    omega
  have hpadding : padding data.length ≤ 2 := by
    unfold padding
    omega
  rw [atob, hkeep, encode, withoutPadding_append hclear hpadding hlen, unpadded, mapM_value? (sextets_lt data),
    Option.bind_some, bytes_sextets, Option.map_some]

theorem a2bBase64_symbol {n : ℕ} (h : n < 64) (rest : List Char) (quadPos leftchar pads : ℕ) :
    a2bBase64 (symbol n :: rest) quadPos leftchar pads =
      match quadPos with
      | 0 => a2bBase64 rest 1 n 0
      | 1 => (a2bBase64 rest 2 (n % 16) 0).map fun tail => UInt8.ofNat (leftchar * 4 + n / 16) :: tail
      | 2 => (a2bBase64 rest 3 (n % 4) 0).map fun tail => UInt8.ofNat (leftchar * 16 + n / 4) :: tail
      | _ => (a2bBase64 rest 0 0 0).map fun tail => UInt8.ofNat (leftchar * 64 + n) :: tail := by
  rw [a2bBase64, if_neg (symbol_ne_pad n h)]
  simp only [value?_symbol h]

/-- From the start of a group, the loop reads the sextets of a byte string in groups of four. -/
theorem a2bBase64_sextets {ns : List ℕ} (hns : ∀ n ∈ ns, n < 64) {data : List UInt8} (hdata : bytes ns = some data)
    (leftchar pads : ℕ) :
    a2bBase64 (ns.map symbol ++ List.replicate ((4 - ns.length % 4) % 4) '=') 0 leftchar pads = some data := by
  induction ns using bytes.induct generalizing data leftchar pads with
  | case1 => exact hdata
  | case2 p => cases hdata
  | case3 p q =>
    have hp := hns p (by simp)
    have hq := hns q (by simp)
    simp only [List.map_cons, List.map_nil, List.cons_append, List.nil_append, a2bBase64_symbol hp,
      a2bBase64_symbol hq]
    exact hdata
  | case4 p q r =>
    have hp := hns p (by simp)
    have hq := hns q (by simp)
    have hr := hns r (by simp)
    simp only [List.map_cons, List.map_nil, List.cons_append, List.nil_append, a2bBase64_symbol hp,
      a2bBase64_symbol hq, a2bBase64_symbol hr]
    exact hdata
  | case5 p q r s rest ih =>
    have hp := hns p (by simp)
    have hq := hns q (by simp)
    have hr := hns r (by simp)
    have hs := hns s (by simp)
    obtain ⟨tail,htail,rfl⟩ := Option.map_eq_some_iff.mp hdata
    have hpads : (4 - (p :: q :: r :: s :: rest).length % 4) % 4 = (4 - rest.length % 4) % 4 := by
      simp only [List.length_cons]
      omega
    have hrest := ih (fun n hn => hns n (by simp [hn])) htail 0 0
    simp only [hpads, List.map_cons, List.cons_append, a2bBase64_symbol hp, a2bBase64_symbol hq, a2bBase64_symbol hr,
      a2bBase64_symbol hs, hrest, Option.map_some]

theorem a2bBase64_encode (data : List UInt8) : a2bBase64 (encode data) 0 0 0 = some data := by
  rw [encode, padding_eq, unpadded]
  exact a2bBase64_sextets (sextets_lt data) (bytes_sextets data) 0 0

/-! ## Round trips -/

theorem base64UrlToBytes_urlUnpadded (data : List UInt8) :
    base64UrlToBytes (String.ofList (urlUnpadded data)) = some data := by
  have hlen : (urlUnpadded data).length = (unpadded data).length := by
    rw [urlUnpadded, unpadded, List.length_map, List.length_map]
  have hpad : padEnd (((urlUnpadded data).length + 3) / 4 * 4) (unpadded data) = encode data := by
    have hcount : ((unpadded data).length + 3) / 4 * 4 - (unpadded data).length = padding data.length := by
      rw [padding_eq, unpadded, List.length_map]
      omega
    rw [padEnd, hlen, hcount]
    rfl
  rw [base64UrlToBytes, String.toList_ofList, replaceAll_urlUnpadded, hpad, atob_encode, Option.map_some,
    map_char_map]

theorem base64urlDecode_urlUnpadded (data : List UInt8) :
    base64urlDecode (String.ofList (urlUnpadded data)) = .ok data := by
  have hcount : (-((urlUnpadded data).length : ℤ) % 4).toNat = padding data.length := by
    rw [padding_eq, urlUnpadded, List.length_map]
    omega
  have hascii : (urlUnpadded data ++ List.replicate (padding data.length) '=').all (fun c => decide (c.toNat < 128)) =
      true := by
    rw [List.all_eq_true]
    intro c hc
    rcases List.mem_append.mp hc with hc | hc
    · have hlt : ∀ c ∈ urlUnpadded data, c.toNat < 128 := forall_urlUnpadded (by decide) data
      exact decide_eq_true (hlt c hc)
    · rw [List.eq_of_mem_replicate hc]
      decide
  have hread : urlsafeB64decode (urlUnpadded data ++ List.replicate (padding data.length) '=') = some data := by
    rw [urlsafeB64decode, if_pos hascii, replaceAll_append, replaceAll_append, replaceAll_pads (by decide),
      replaceAll_pads (by decide), replaceAll_urlUnpadded]
    exact a2bBase64_encode data
  simp only [base64urlDecode, String.toList_ofList, hcount, hread]

theorem AuthenticatorResponse.isSome_json (response : AuthenticatorResponse) :
    response.json.isSome = response.supported := by
  cases response with
  | attestation clientDataJson attestationObject transports =>
    simp only [json, bytesToBase64Url_eq, supported]
    rfl
  | assertion clientDataJson authenticatorData signature userHandle =>
    cases userHandle <;> simp only [json, bytesToBase64Url_eq, supported] <;> rfl
  | other => rfl

theorem credentialId_rawId {credential : JsonObject} {rawId : String} (h : credential.get "rawId" = .str rawId) :
    credentialId credential = base64urlDecode rawId := by
  simp only [credentialId, h, Json.str?]

/-- Whatever the response of the authenticator, the server reads the id of the credential itself. -/
theorem credentialId_credentialJson (credential : PublicKeyCredential) :
    (credentialJson credential).map credentialId =
      if credential.response.supported then some (.ok credential.rawId) else none := by
  rw [← AuthenticatorResponse.isSome_json]
  simp only [credentialJson, bytesToBase64Url_eq]
  cases credential.response.json with
  | none => rfl
  | some response => exact congrArg some ((credentialId_rawId rfl).trans (base64urlDecode_urlUnpadded _))

/-- For every byte string and every credential of the browser. -/
theorem base64Url_codecs_agree (data : List UInt8) (credential : PublicKeyCredential) :
    (∃ text, bytesToBase64Url data = some text ∧ base64UrlToBytes text = some data ∧
      base64urlDecode text = .ok data) ∧
    (credentialJson credential).map credentialId =
      if credential.response.supported then some (.ok credential.rawId) else none :=
  ⟨⟨_,bytesToBase64Url_eq data,base64UrlToBytes_urlUnpadded data,base64urlDecode_urlUnpadded data⟩,
    credentialId_credentialJson credential⟩

section Login
variable (settings : Operations.Settings) (chance : Operations.Chance) (db : Operations.SecurityDb)
variable (idText : List UInt8 → String)

/-- `finish_passkey_authentication` over the body it is sent; the rows hold the ids by `idText`. -/
def finishLogin (c : ChallengeId) (credential : JsonObject) (verification : Option Nat) : Operations.OpEffect :=
  Operations.finishPasskeyAuthentication settings chance db c ((credentialId credential).toOption.map idText) verification

theorem finishLogin_sent {credential : PublicKeyCredential} {body : JsonObject}
    (h : credentialJson credential = some body) (c : ChallengeId) (verification : Option Nat) :
    finishLogin settings chance db idText c body verification =
      Operations.finishPasskeyAuthentication settings chance db c (some (idText credential.rawId)) verification := by
  have hid := credentialId_credentialJson credential
  rw [h, Option.map_some] at hid
  split at hid
  · rw [finishLogin, Option.some.inj hid]
    rfl
  · cases hid

end Login

end AgentGraph.Security
