import VaultSync.Opfs.Files

/-! A page format whose files and data are terms. -/

namespace VaultSync.Opfs

inductive Payload where
  | oplog (entries : List (OplogEntry Unit))
  | doc (entry : DocEntry Unit)
  | value (n : ℕ)
  deriving DecidableEq

def Payload.oplog? : Payload → Option (List (OplogEntry Unit))
  | oplog entries => some entries
  | _ => none

def Payload.doc? : Payload → Option (DocEntry Unit)
  | doc entry => some entry
  | _ => none

def Payload.value? : Payload → Option ℕ
  | value n => some n
  | _ => none

def symbolic : PageLib (PageHeader × Payload) Payload Unit where
  encode h d := (h, d)
  isEmpty _ := false
  isJson _ := false
  decodePageHeader f := .ok f.1
  extractPageData f := .ok f.2
  decodePage f := .ok f
  crc32 _ := 0
  len _ := 0
  decodeDoc := Payload.doc?
  decodeOplog := Payload.oplog?
  decodeEntry _ := none
  encodeOplog := .oplog
  len_lt _ := Nat.two_pow_pos 32
  isEmpty_encode _ _ := rfl
  isJson_encode _ _ := rfl
  decodePageHeader_encode _ _ _ := rfl
  decodePage_encode _ _ _ := rfl
  extractPageData_encode _ _ _ _ := rfl
  decodeOplog_encodeOplog _ := rfl

end VaultSync.Opfs
