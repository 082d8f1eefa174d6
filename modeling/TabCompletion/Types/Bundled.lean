import TabCompletion.Types.Bundled.Automation
import TabCompletion.Types.Bundled.Collections
import TabCompletion.Types.Bundled.Library
import TabCompletion.Types.Bundled.Primitives
import TabCompletion.Types.Bundled.Values

/-!
Everything about types that is known from the start: described types, accelerators, names without
a description and members attached to types.
-/

namespace TabCompletion.Bundled

open Declaration

def knownTypes : List TypeModel :=
  primitives ++ values ++ collections ++ library ++ automation

def accelerators : List (Text × Text) :=
  acceleratorNames.map fun (shortForm, fullName) => (Text.ofString shortForm, Text.ofString fullName)
where
  acceleratorNames : List (String × String) := [
    ("adsi", "System.DirectoryServices.DirectoryEntry"),
    ("array", "System.Array"),
    ("bool", "System.Boolean"),
    ("byte", "System.Byte"),
    ("char", "System.Char"),
    ("cimclass", "Microsoft.Management.Infrastructure.CimClass"),
    ("ciminstance", "Microsoft.Management.Infrastructure.CimInstance"),
    ("cmdletbinding", "System.Management.Automation.CmdletBindingAttribute"),
    ("datetime", "System.DateTime"),
    ("decimal", "System.Decimal"),
    ("double", "System.Double"),
    ("enum", "System.Enum"),
    ("float", "System.Single"),
    ("guid", "System.Guid"),
    ("hashtable", "System.Collections.Hashtable"),
    ("int", "System.Int32"),
    ("int16", "System.Int16"),
    ("int32", "System.Int32"),
    ("int64", "System.Int64"),
    ("long", "System.Int64"),
    ("math", "System.Math"),
    ("object", "System.Object"),
    ("ordered", "System.Collections.Specialized.OrderedDictionary"),
    ("outputtype", "System.Management.Automation.OutputTypeAttribute"),
    ("parameter", "System.Management.Automation.ParameterAttribute"),
    ("alias", "System.Management.Automation.AliasAttribute"),
    ("pscredential", "System.Management.Automation.PSCredential"),
    ("pscustomobject", "System.Management.Automation.PSCustomObject"),
    ("psmoduleinfo", "System.Management.Automation.PSModuleInfo"),
    ("psobject", "System.Management.Automation.PSObject"),
    ("regex", "System.Text.RegularExpressions.Regex"),
    ("scriptblock", "System.Management.Automation.ScriptBlock"),
    ("single", "System.Single"),
    ("string", "System.String"),
    ("switch", "System.Management.Automation.SwitchParameter"),
    ("timespan", "System.TimeSpan"),
    ("type", "System.Type"),
    ("uint32", "System.UInt32"),
    ("uint64", "System.UInt64"),
    ("uri", "System.Uri"),
    ("validatenotnullorempty", "System.Management.Automation.ValidateNotNullOrEmptyAttribute"),
    ("validatepattern", "System.Management.Automation.ValidatePatternAttribute"),
    ("validaterange", "System.Management.Automation.ValidateRangeAttribute"),
    ("validateset", "System.Management.Automation.ValidateSetAttribute"),
    ("ArgumentCompleter", "System.Management.Automation.ArgumentCompleterAttribute"),
    ("version", "System.Version"),
    ("void", "System.Void"),
    ("wmi", "System.Management.ManagementObject"),
    ("xml", "System.Xml.XmlDocument")]

def typeNames : List Text := names.map Text.ofString
where
  names : List String := [
    "Microsoft.CSharp.CSharpCodeProvider",
    "Microsoft.Management.Infrastructure.CimClass",
    "Microsoft.Management.Infrastructure.CimSession",
    "Microsoft.Win32.Registry",
    "Microsoft.Win32.RegistryKey",
    "System.AppDomain",
    "System.ArgumentException",
    "System.ArgumentNullException",
    "System.BitConverter",
    "System.Buffer",
    "System.Collections.BitArray",
    "System.Collections.CollectionBase",
    "System.Collections.Generic.LinkedList\x601",
    "System.Collections.Generic.Queue\x601",
    "System.Collections.Generic.SortedDictionary\x602",
    "System.Collections.Generic.SortedList\x602",
    "System.Collections.Generic.Stack\x601",
    "System.Collections.ObjectModel.Collection\x601",
    "System.Collections.ObjectModel.ReadOnlyCollection\x601",
    "System.Collections.Queue",
    "System.Collections.SortedList",
    "System.Collections.Specialized.NameValueCollection",
    "System.Collections.Specialized.StringCollection",
    "System.Collections.Stack",
    "System.ComponentModel.Win32Exception",
    "System.Convert",
    "System.DateTimeOffset",
    "System.Delegate",
    "System.Diagnostics.Debug",
    "System.Diagnostics.EventLog",
    "System.Diagnostics.FileVersionInfo",
    "System.Diagnostics.ProcessStartInfo",
    "System.Diagnostics.Stopwatch",
    "System.DirectoryServices.DirectoryEntry",
    "System.DirectoryServices.DirectorySearcher",
    "System.Exception",
    "System.FormatException",
    "System.GC",
    "System.Globalization.CultureInfo",
    "System.Globalization.TextInfo",
    "System.IntPtr",
    "System.InvalidOperationException",
    "System.IO.BinaryReader",
    "System.IO.BinaryWriter",
    "System.IO.DriveInfo",
    "System.IO.FileNotFoundException",
    "System.IO.FileStream",
    "System.IO.FileSystemWatcher",
    "System.IO.MemoryStream",
    "System.IO.SearchOption",
    "System.IO.Stream",
    "System.IO.StreamReader",
    "System.IO.StreamWriter",
    "System.IO.StringReader",
    "System.IO.StringWriter",
    "System.IO.Compression.GZipStream",
    "System.IO.Compression.ZipFile",
    "System.Lazy\x601",
    "System.Management.Automation.CommandInfo",
    "System.Management.Automation.ErrorRecord",
    "System.Management.Automation.Language.Ast",
    "System.Management.Automation.Language.Parser",
    "System.Management.Automation.PSMemberInfoCollection\x601",
    "System.Management.Automation.PSTypeName",
    "System.Management.Automation.PowerShell",
    "System.Management.Automation.Runspaces.Runspace",
    "System.Management.Automation.Runspaces.RunspaceFactory",
    "System.Management.ManagementObject",
    "System.Net.Dns",
    "System.Net.HttpWebRequest",
    "System.Net.IPAddress",
    "System.Net.IPEndPoint",
    "System.Net.NetworkCredential",
    "System.Net.ServicePointManager",
    "System.Net.Sockets.TcpClient",
    "System.Net.Sockets.UdpClient",
    "System.Net.WebClient",
    "System.Net.WebRequest",
    "System.Net.Http.HttpClient",
    "System.NotImplementedException",
    "System.NotSupportedException",
    "System.Nullable\x601",
    "System.OperatingSystem",
    "System.Random",
    "System.Reflection.Assembly",
    "System.Reflection.BindingFlags",
    "System.Reflection.MethodInfo",
    "System.Reflection.PropertyInfo",
    "System.Runtime.InteropServices.Marshal",
    "System.Security.Cryptography.MD5",
    "System.Security.Cryptography.SHA256",
    "System.Security.Cryptography.X509Certificates.X509Certificate2",
    "System.Security.Principal.WindowsIdentity",
    "System.Security.Principal.WindowsPrincipal",
    "System.Security.SecureString",
    "System.Text.ASCIIEncoding",
    "System.Text.UTF8Encoding",
    "System.Threading.Mutex",
    "System.Threading.Thread",
    "System.Threading.Tasks.Task",
    "System.Timers.Timer",
    "System.Tuple\x602",
    "System.Tuple\x603",
    "System.Web.HttpUtility",
    "System.Windows.Forms.Form",
    "System.Xml.XmlDocument",
    "System.Xml.XmlElement",
    "System.Xml.XmlNode"]

def attachedMembers : List (Text × List Member) := [
  ("System.Array", [
    member .aliasProperty "Count" "System.Int32"]),
  ("System.String", [
    member .aliasProperty "Count" "System.Int32"]),
  ("System.Collections.ArrayList", [
    member .property "Count" "System.Int32"]),
  ("System.IO.FileInfo", [
    member .scriptProperty "BaseName" "System.Object",
    member .scriptProperty "VersionInfo" "System.Object",
    member .noteProperty "PSChildName" "System.String",
    member .noteProperty "PSParentPath" "System.String"]),
  ("System.IO.DirectoryInfo", [
    member .scriptProperty "BaseName" "System.Object",
    member .noteProperty "PSChildName" "System.String",
    member .noteProperty "PSParentPath" "System.String"]),
  ("System.Diagnostics.Process", [
    member .aliasProperty "Name" "System.String",
    member .scriptProperty "CPU" "System.Object",
    member .scriptProperty "Company" "System.Object",
    member .scriptProperty "Description" "System.Object"])]

end TabCompletion.Bundled
