/-!
# Snake case

Settings spell a name such as `BluetoothA2dp` as `bluetooth_a2dp`: an underscore before every
capital but the first, and all letters small.
-/
namespace Patchbay

private def snakeTail : List Char → List Char
  | [] => []
  | c :: rest =>
    if c.isUpper then '_' :: c.toLower :: snakeTail rest else c :: snakeTail rest

/-- The settings spelling of a capitalised name. -/
def snakeCase (name : String) : String :=
  match name.toList with
  | [] => ""
  | c :: rest => String.ofList (c.toLower :: snakeTail rest)

end Patchbay
