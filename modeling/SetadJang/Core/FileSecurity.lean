import Mathlib.Data.List.Basic

/-!
# The upload scanner

An upload is refused for its suffix, or for what its first bytes show: a script or a program, or
an image of another kind than the suffix says.
-/

namespace SetadJang.FileSecurity

/-- `FILE_SCAN_PROVIDER`. -/
inductive ScanProvider where
  | noop
  | extensionBlocklist
  | default
deriving DecidableEq, Repr

structure FileScanResult where
  clean : Bool
  provider : String
  reason : String
deriving DecidableEq, Repr

/-- `DANGEROUS_EXTENSIONS`. -/
def dangerousExtensions : List String :=
  [".bat", ".cmd", ".com", ".cpl", ".dll", ".exe", ".hta", ".jar", ".js", ".jse", ".lnk", ".msi",
    ".msp", ".pif", ".ps1", ".reg", ".scr", ".vbe", ".vbs", ".wsf", ".wsh", ".asp", ".aspx", ".cgi",
    ".jsp", ".jspx", ".phar", ".pht", ".php", ".php3", ".php4", ".php5", ".php7", ".phps", ".phtml",
    ".pl", ".py", ".rb", ".sh", ".htm", ".html", ".mhtml", ".shtml", ".svg", ".swf", ".xhtml", ".xml"]

/-- `_FORBIDDEN_SIGNATURES`: `MZ`, `ELF`, the magic numbers of Java and Mach-O, `#!`, `<?php`,
`<script`, `<!DOCTYPE html` and `<html`. -/
def forbiddenSignatures : List (List UInt8 × String) :=
  [([0x4d, 0x5a], "dos_or_windows_executable"),
    ([0x7f, 0x45, 0x4c, 0x46], "elf_executable"),
    ([0xca, 0xfe, 0xba, 0xbe], "java_class_or_macho_fat"),
    ([0xfe, 0xed, 0xfa, 0xce], "mach_o_executable"),
    ([0xfe, 0xed, 0xfa, 0xcf], "mach_o_executable"),
    ([0x23, 0x21], "script_shebang"),
    ([0x3c, 0x3f, 0x70, 0x68, 0x70], "php_source"),
    ([0x3c, 0x73, 0x63, 0x72, 0x69, 0x70, 0x74], "inline_script"),
    ([0x3c, 0x21, 0x44, 0x4f, 0x43, 0x54, 0x59, 0x50, 0x45, 0x20, 0x68, 0x74, 0x6d, 0x6c],
      "html_document"),
    ([0x3c, 0x68, 0x74, 0x6d, 0x6c], "html_document")]

/-- `_IMAGE_SIGNATURES`, of JPEG, PNG and the two versions of GIF. -/
def imageSignatures : List (List UInt8 × List String) :=
  [([0xff, 0xd8, 0xff], [".jpg", ".jpeg"]),
    ([0x89, 0x50, 0x4e, 0x47, 0x0d, 0x0a, 0x1a, 0x0a], [".png"]),
    ([0x47, 0x49, 0x46, 0x38, 0x37, 0x61], [".gif"]),
    ([0x47, 0x49, 0x46, 0x38, 0x39, 0x61], [".gif"])]

/-- `_SNIFF_BYTES`. -/
def sniffBytes : ℕ := 512

/-- `bytes.lower()`, byte by byte. -/
def lowerByte (b : UInt8) : UInt8 := if 0x41 ≤ b ∧ b ≤ 0x5a then b + 32 else b

/-- What `bytes.lstrip()` takes off. -/
def isSpaceByte (b : UInt8) : Bool := b == 32 || (9 ≤ b && b ≤ 13)

/-- `detect_forbidden_signature`. -/
def detectForbiddenSignature (head : List UInt8) : String :=
  let stripped := ((head.dropWhile isSpaceByte).take 64).map lowerByte
  match forbiddenSignatures.find? fun signature =>
      signature.1.isPrefixOf head || (signature.1.map lowerByte).isPrefixOf stripped with
  | none => ""
  | some signature => signature.2

/-- `image_signature_matches_extension`. -/
def imageSignatureMatchesExtension (head : List UInt8) (extension : String) : Option Bool :=
  (imageSignatures.find? fun signature => signature.1.isPrefixOf head).map fun signature =>
    signature.2.contains extension

/-! ## The scanners -/

section Scanners

variable (extension : String) (file : List UInt8)

def noopScan : FileScanResult := ⟨true, "noop", ""⟩

def extensionBlocklistScan : FileScanResult :=
  if dangerousExtensions.contains extension then
    ⟨false, "extension_blocklist", "dangerous_extension"⟩
  else ⟨true, "extension_blocklist", ""⟩

def contentSignatureScan : FileScanResult :=
  let head := file.take sniffBytes
  if head = [] then ⟨true, "content_signature", ""⟩
  else if detectForbiddenSignature head ≠ "" then
    ⟨false, "content_signature", detectForbiddenSignature head⟩
  else if extension ≠ "" ∧ imageSignatureMatchesExtension head extension = some false then
    ⟨false, "content_signature", "content_extension_mismatch"⟩
  else ⟨true, "content_signature", ""⟩

/-- The first result that is not clean. -/
def compositeScan (results : List FileScanResult) : FileScanResult :=
  (results.find? fun result => !result.clean).getD ⟨true, "composite", ""⟩

/-- `get_file_scanner().scan(file)`, for a file whose name has the lower-case suffix. -/
def scan (provider : ScanProvider) : FileScanResult :=
  match provider with
  | .noop => noopScan
  | .extensionBlocklist => extensionBlocklistScan extension
  | .default => compositeScan [extensionBlocklistScan extension, contentSignatureScan extension file]

/-- The message of the `ValidationError`. -/
def unsafeFileMessage : String := "فایل ضمیمه از نظر امنیتی مجاز نیست."

/-- `validate_uploaded_file_security`. -/
def validateUploadedFileSecurity (provider : ScanProvider) : Except String Unit :=
  if (scan extension file provider).clean then .ok () else .error unsafeFileMessage

end Scanners

end SetadJang.FileSecurity
