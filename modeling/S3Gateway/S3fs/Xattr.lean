import S3Gateway.S3fs.Filesystem

/-!
# Extended attributes (`internal/s3fs/xattr.go`)

An extended attribute is a user-metadata entry of the object: its name is
hex-encoded behind the prefix `Xattr-`, its value base64-encoded. Lookups ignore
case, since S3 servers may change the case of metadata keys.
-/

namespace S3Gateway

open Lib

def xattrMetaPrefix : GoString := gs "Xattr-"
def xattrValueMax : Nat := 2048
def xattrMaxTotalBytes : Nat := 6144

/-- ASCII lower case. -/
def toLower (c : UInt8) : UInt8 := if 65 ≤ c ∧ c ≤ 90 then c + 32 else c

/-- `strings.EqualFold`, for strings one of which is ASCII without `k` and `s`
(the letters that fold to letters outside ASCII). -/
def equalFold (s t : GoString) : Bool := s.map toLower == t.map toLower

/-- `xattrMetaKey`. -/
def xattrMetaKey (name : GoString) : Except GoError GoString :=
  if name = [] then .error .errInvalid
  else if [gs "user.", gs "trusted.", gs "security.", gs "system."].any (hasPrefix name) then
    .error .errInvalid
  else .ok (xattrMetaPrefix ++ hexEncodeToString name)

/-- `findXattr`. -/
def findXattr (userMeta : Metadata) (metaKey : GoString) : Option GoString :=
  match userMeta.lookup metaKey with
  | some v => some v
  | none => (userMeta.entries.find? fun kv => equalFold kv.1 metaKey).map (·.2)

/-- `shortFromMetaKey`. -/
def shortFromMetaKey (metaKey : GoString) : Option GoString :=
  if metaKey.length ≤ xattrMetaPrefix.length then none
  else if !equalFold (metaKey.take xattrMetaPrefix.length) xattrMetaPrefix then none
  else hexDecodeString (metaKey.drop xattrMetaPrefix.length)

/-- `totalXattrBytes`. -/
def totalXattrBytes (userMeta : Metadata) : Nat :=
  userMeta.entries.foldl (fun total kv =>
    if (shortFromMetaKey kv.1).isSome then total + (kv.1.length + kv.2.length) else total) 0

/-- The option of `SetXattr`. -/
def checkXattrOption (option : UInt32) (found : Bool) : Except GoError Unit :=
  if option = 1 then if found then .error .errExist else .ok ()
  else if option = 2 then if found then .ok () else .error .errNotExist
  else if option = 0 then .ok ()
  else .error .errInvalid

/-- `GetXattr`. A value that is not valid base64 counts as absent. -/
def getXattr (path name : GoString) : Gw (Except GoError Bytes) :=
  match xattrMetaKey name with
  | .error err => pure (.error err)
  | .ok metaKey => do
    match ← headPath path with
    | none => pure (.error .errNotExist)
    | some (_, objInfo) =>
      match findXattr objInfo.userMetadata metaKey with
      | none => pure (.error .errNotExist)
      | some encoded =>
        match base64Decode encoded with
        | none => pure (.error (.wrap (gs "xattr " ++ name ++ gs ": decode") .errNotExist))
        | some decoded => pure (.ok decoded)

/-- `SetXattr`. -/
def setXattr (path name value : GoString) (option : UInt32) : Gw (Except GoError Unit) :=
  if value.length > xattrValueMax then
    pure (.error (.wrap (gs "xattr value too large") .errInvalid))
  else
    match xattrMetaKey name with
    | .error err => pure (.error err)
    | .ok metaKey => do
      match ← headPath path with
      | none => pure (.error .errNotExist)
      | some (key, objInfo) =>
        match checkXattrOption option (findXattr objInfo.userMetadata metaKey).isSome with
        | .error err => pure (.error err)
        | .ok () =>
          let userMeta := objInfo.userMetadata.insert metaKey (base64Encode value)
          if totalXattrBytes userMeta > xattrMaxTotalBytes then
            pure (.error (.wrap (gs "xattr total too large") .errInvalid))
          else replaceMetadata (gs "xattr set") key userMeta

/-- `ListXattrs`. -/
def listXattrs (path : GoString) : Gw (Except GoError (List GoString)) := do
  match ← headPath path with
  | none => pure (.error .errNotExist)
  | some (_, objInfo) =>
    pure (.ok (objInfo.userMetadata.entries.filterMap fun kv => shortFromMetaKey kv.1))

/-- `RemoveXattr`. -/
def removeXattr (path name : GoString) : Gw (Except GoError Unit) :=
  match xattrMetaKey name with
  | .error err => pure (.error err)
  | .ok metaKey => do
    match ← headPath path with
    | none => pure (.error .errNotExist)
    | some (key, objInfo) =>
      if (findXattr objInfo.userMetadata metaKey).isNone then pure (.error .errNotExist)
      else
        let userMeta := objInfo.userMetadata.entries.foldl (fun (m : Metadata) kv =>
          if equalFold kv.1 metaKey then m.erase kv.1 else m) objInfo.userMetadata
        replaceMetadata (gs "xattr remove") key userMeta

end S3Gateway
