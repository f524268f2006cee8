import Mathlib.Data.List.AList
import Tronc.Json

namespace Tronc.Mcp

namespace ErrorCode

def parseError : Int := -32700
def invalidRequest : Int := -32600
def methodNotFound : Int := -32601
def invalidParams : Int := -32602
def internalError : Int := -32603
def headerMismatch : Int := -32020
def missingRequiredClientCapability : Int := -32021
def unsupportedProtocolVersion : Int := -32022

end ErrorCode

def JSONRPC_VERSION : String := "2.0"

/-- The default protocol revision, of the `initialize` era. -/
def PROTOCOL_VERSION : String := "2025-11-25"

/-- A JSON-RPC request, or a notification when it has no id. The last three fields are the
transport's, never the body's. -/
structure JsonRpcRequest where
  jsonrpc : String
  method : String
  params : Option Json
  id : Option Json
  authToken : Option String
  headers : Option (AList fun _ : String => Json)
  metadata : AList fun _ : String => String
  deriving DecidableEq

namespace JsonRpcRequest

/-- What is read from a body: nothing of the transport's. -/
def received (jsonrpc method : String) (params id : Option Json) : JsonRpcRequest where
  jsonrpc := jsonrpc
  method := method
  params := params
  id := id
  authToken := none
  headers := none
  metadata := ∅

def withMetadata (request : JsonRpcRequest) (key value : String) : JsonRpcRequest :=
  { request with metadata := request.metadata.insert key value }

def getMetadata (request : JsonRpcRequest) (key : String) : Option String :=
  request.metadata.lookup key

end JsonRpcRequest

structure JsonRpcError where
  code : Int
  message : String
  data : Option Json
  deriving DecidableEq

structure JsonRpcResponse where
  jsonrpc : String
  result : Option Json
  error : Option JsonRpcError
  id : Option Json
  deriving DecidableEq

namespace JsonRpcResponse

def success (id : Option Json) (result : Json) : JsonRpcResponse :=
  ⟨JSONRPC_VERSION, some result, none, id⟩

/-- `JsonRpcResponse::error`. -/
def failure (id : Option Json) (code : Int) (message : String) : JsonRpcResponse :=
  ⟨JSONRPC_VERSION, none, some ⟨code, message, none⟩, id⟩

/-- `JsonRpcResponse::error_with_data`. -/
def failureWithData (id : Option Json) (code : Int) (message : String) (data : Json) :
    JsonRpcResponse := ⟨JSONRPC_VERSION, none, some ⟨code, message, some data⟩, id⟩

/-- The code of the error the response carries. -/
def code (response : JsonRpcResponse) : Option Int := response.error.map JsonRpcError.code

end JsonRpcResponse

/-- What `dispatch` answers to a request of another JSON-RPC version. -/
def versionRefusal (request : JsonRpcRequest) : JsonRpcResponse :=
  .failure request.id ErrorCode.invalidRequest
    ("Unsupported JSON-RPC version: " ++ request.jsonrpc)

/-- One message of a connection, either way. -/
inductive JsonRpcMessage where
  /-- A request, or a notification when it carries no id. -/
  | request (request : JsonRpcRequest)
  /-- A response to a request the other side sent. -/
  | response (response : JsonRpcResponse)
  deriving DecidableEq

def JsonRpcMessage.isResponse : JsonRpcMessage → Bool
  | .request _ => false
  | .response _ => true

end Tronc.Mcp
