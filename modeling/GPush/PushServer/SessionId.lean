import GPush.ConnectServer.Routing

/-!
# Session ids of a push server

A push server has two encoders of its own, `decorationName` and `genSessID`, and a decoder
that checks the length.  They agree with those of the connect server.
-/

namespace GPush.PushServer

open GPush.Codec GPush.ConnectServer

/-- `decorationName`. -/
def decorationName (svid conid : Int) (n : Bytes) : Bytes :=
  base64Encode (int32Bytes svid ++ int32Bytes conid) ++ n

/-- `genSessID`. -/
def genSessID (svid conid : Int) (n : Bytes) : Bytes :=
  base64Encode (int32Bytes svid ++ int32Bytes conid) ++ n

/-- `getDecorationInfo`; `none` is the result -1.  The numbers are read from the decoded
buffer whatever its length, and `beyond` is what stands behind it. -/
def getDecorationInfo (beyond dn : Bytes) : Option Decoration :=
  if dn.length < 12 then
    none
  else
    let buf := base64Decode (dn.take 12) ++ beyond
    some ⟨readInt32 buf, readInt32 (buf.drop 4), dn.drop 12⟩

/-- The check of the length is where the two decoders differ: it answers -1 where
`dn.substr(12)` throws. -/
theorem getDecorationInfo_eq (beyond dn : Bytes) :
    getDecorationInfo beyond dn = ConnectServer.getDecorationInfo beyond dn :=
  rfl

theorem decorationName_inj {svid conid svid' conid' : Int32} {n n' : Bytes}
    (same : ConnectServer.decorationName svid.toInt conid.toInt n =
      ConnectServer.decorationName svid'.toInt conid'.toInt n') :
    svid = svid' ∧ conid = conid' ∧ n = n' := by
  have decoded := getDecorationInfo_decorationName svid.le_toInt svid.toInt_lt conid.le_toInt
    conid.toInt_lt n []
  have decoded' := getDecorationInfo_decorationName svid'.le_toInt svid'.toInt_lt conid'.le_toInt
    conid'.toInt_lt n' []
  rw [same, decoded'] at decoded
  injection Option.some.inj decoded with svidEq conidEq nEq
  exact ⟨Int32.toInt.inj svidEq.symm, Int32.toInt.inj conidEq.symm, nEq.symm⟩

/-- The three encoders produce one string, both decoders read the three components back from
it, and a string belongs to one triple only. -/
theorem sessionId_roundTrip (svid conid : Int32) (n : Bytes) :
    decorationName svid.toInt conid.toInt n =
        ConnectServer.decorationName svid.toInt conid.toInt n ∧
      genSessID svid.toInt conid.toInt n =
        ConnectServer.decorationName svid.toInt conid.toInt n ∧
      (∀ beyond, ConnectServer.getDecorationInfo beyond
        (ConnectServer.decorationName svid.toInt conid.toInt n) =
          some ⟨svid.toInt, conid.toInt, n⟩) ∧
      (∀ beyond, getDecorationInfo beyond
        (ConnectServer.decorationName svid.toInt conid.toInt n) =
          some ⟨svid.toInt, conid.toInt, n⟩) ∧
      ∀ (svid' conid' : Int32) (n' : Bytes),
        ConnectServer.decorationName svid.toInt conid.toInt n =
            ConnectServer.decorationName svid'.toInt conid'.toInt n' →
          svid = svid' ∧ conid = conid' ∧ n = n' := by
  have decoded := getDecorationInfo_decorationName svid.le_toInt svid.toInt_lt conid.le_toInt
    conid.toInt_lt n
  refine ⟨rfl, rfl, decoded, ?_, fun _ _ _ same => decorationName_inj same⟩
  intro beyond
  rw [getDecorationInfo_eq]
  exact decoded beyond

end GPush.PushServer
